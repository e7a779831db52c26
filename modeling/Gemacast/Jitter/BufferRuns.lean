import Gemacast.Jitter.BufferInvariant

/-!
# Runs of the jitter buffer

Every interleaving of the six operations, from the empty buffer. The window
invariant holds in every state of a run whose inserted numbers leave room for
the capacity in a `u64`; the playhead itself may wrap, since by then nothing is
stored.
-/

namespace Gemacast.Jitter

open Gemacast.Core

namespace JitterBuffer

/-- One call on the buffer. -/
inductive Op
  | insert (p : RawPacket)
  | popNext
  | advanceOne
  | fastForward (seq : UInt64)
  | reset
  deriving DecidableEq

/-- What a call answers. -/
inductive Answer
  | inserted (r : InsertResult)
  | popped (p : Option RawPacket)
  | moved
  deriving DecidableEq

/-- The buffer as a machine over its calls. -/
def machine : Machine JitterBuffer Op Answer where
  init := JitterBuffer.new
  step b
    | .insert p => ((b.insert p).1, .inserted (b.insert p).2)
    | .popNext => (b.popNext.1, .popped b.popNext.2)
    | .advanceOne => (b.advanceOne, .moved)
    | .fastForward seq => (b.fastForward seq, .moved)
    | .reset => (b.reset, .moved)

/-- A fast-forward goes to a number at or after the playhead. -/
def Op.Forward (b : JitterBuffer) : Op → Prop
  | .fastForward seq => b.playhead ≤ seq.toNat
  | _ => True

/-- The number of an inserted packet leaves room for the capacity in a `u64`. -/
def Op.LeavesRoom : Op → Prop
  | .insert p => p.seq + bufferCapacity < 2 ^ 64
  | _ => True

/-- No addition of sequence numbers that the call executes wraps. -/
def Op.Fits (b : JitterBuffer) : Op → Prop
  | .insert p => b.InsertFits p
  | .popNext => b.initialized = true → b.playhead + 1 < 2 ^ 64
  | .advanceOne => b.playhead + 1 < 2 ^ 64
  | .fastForward seq =>
    seq.toNat < b.playhead + bufferCapacity → b.playhead + bufferCapacity < 2 ^ 64
  | .reset => True

instance (b : JitterBuffer) (p : RawPacket) : Decidable (b.InsertFits p) :=
  inferInstanceAs (Decidable (_ ∧ _))

instance (b : JitterBuffer) : DecidablePred (Op.Forward b) := fun op =>
  match op with
  | .fastForward seq => inferInstanceAs (Decidable (b.playhead ≤ seq.toNat))
  | .insert _ | .popNext | .advanceOne | .reset => isTrue trivial

instance : DecidablePred Op.LeavesRoom := fun op =>
  match op with
  | .insert p => inferInstanceAs (Decidable (p.seq + bufferCapacity < 2 ^ 64))
  | .popNext | .advanceOne | .fastForward _ | .reset => isTrue trivial

instance (b : JitterBuffer) : DecidablePred (Op.Fits b) := fun op =>
  match op with
  | .insert p => inferInstanceAs (Decidable (b.InsertFits p))
  | .popNext => inferInstanceAs (Decidable (b.initialized = true → b.playhead + 1 < 2 ^ 64))
  | .advanceOne => inferInstanceAs (Decidable (b.playhead + 1 < 2 ^ 64))
  | .fastForward seq => inferInstanceAs (Decidable
      (seq.toNat < b.playhead + bufferCapacity → b.playhead + bufferCapacity < 2 ^ 64))
  | .reset => isTrue trivial

variable {b : JitterBuffer}

/-- Every call whose additions fit keeps the invariant. -/
theorem WellFormed.step (h : b.WellFormed) {op : Op} (hforward : op.Forward b) (hfit : op.Fits b) :
    (machine.step b op).1.WellFormed := by
  cases op with
  | insert p => exact h.insert hfit
  | popNext =>
    cases hi : b.initialized with
    | false => exact h.popNext (Or.inr (h.virgin hi))
    | true => exact h.popNext (Or.inl (hfit hi))
  | advanceOne => exact h.advanceOne (Or.inl hfit)
  | fastForward seq => exact h.skipTo hforward (Or.inl hfit)
  | reset => exact WellFormed.new

/-- Calls other than an insertion keep the invariant of a buffer that stores nothing. -/
theorem WellFormed.step_of_empty (h : b.WellFormed) (hempty : b.slots = fun _ => none) {op : Op}
    (hforward : op.Forward b) (hop : ∀ p, op ≠ .insert p) : (machine.step b op).1.WellFormed := by
  cases op with
  | insert p => exact absurd rfl (hop p)
  | popNext => exact h.popNext (Or.inr hempty)
  | advanceOne => exact h.advanceOne (Or.inr hempty)
  | fastForward seq => exact h.skipTo hforward (Or.inr hempty)
  | reset => exact WellFormed.new

theorem store_eq_some {p q : RawPacket} {i : Fin bufferCapacity}
    (hq : (b.store p).slots i = some q) : b.slots i = some q ∨ q = p := by
  by_cases hi : i = index p.seqNum
  · subst hi
    simp only [store, Function.update_self] at hq
    exact Or.inr (Option.some.inj hq).symm
  · exact Or.inl (by simpa [store, Function.update_of_ne hi] using hq)

/-- Every stored packet was stored before the insertion or is the inserted one. -/
theorem WellFormed.insert_eq_some (h : b.WellFormed) {p q : RawPacket} (hfit : b.InsertFits p)
    {i : Fin bufferCapacity} (hq : (b.insert p).1.slots i = some q) :
    b.slots i = some q ∨ q = p := by
  rcases b.insert_cases p with ⟨_, heq⟩ | ⟨hr, heq⟩ | ⟨hs, hr, heq⟩
  · exact Or.inl (by simpa only [heq] using hq)
  · have hs : ¬b.IsStale p := fun hs => by have := hs.2.2; have := hr.2; omega
    obtain ⟨_, _, _, _, hempty, _⟩ := h.opened hfit hs
    refine (store_eq_some (heq ▸ hq)).imp_left fun hq => ?_
    simp [hempty hr] at hq
  · obtain ⟨_, _, _, _, _, hkept⟩ := h.opened hfit hs
    refine (store_eq_some (heq ▸ hq)).imp_left fun hq => ?_
    rw [(hkept hr).1] at hq
    exact (Ring.dropBelow_eq_some.mp hq).1

theorem update_none_eq_some {q : RawPacket} {i j : Fin bufferCapacity}
    (hq : Function.update b.slots j none i = some q) : b.slots i = some q := by
  by_cases hij : i = j
  · subst hij
    simp at hq
  · simpa [Function.update_of_ne hij] using hq

/-- Every stored packet was stored before the call or is inserted by it. -/
theorem WellFormed.step_eq_some (h : b.WellFormed) {op : Op} (hforward : op.Forward b)
    (hfit : op.Fits b ∨ b.slots = fun _ => none)
    (hinsert : ∀ p, op = .insert p → b.InsertFits p) {q : RawPacket} {i : Fin bufferCapacity}
    (hq : (machine.step b op).1.slots i = some q) : b.slots i = some q ∨ op = .insert q := by
  cases op with
  | insert p =>
    exact (h.insert_eq_some (hinsert p rfl) hq).imp_right fun hqp => by rw [hqp]
  | popNext =>
    left
    change b.popNext.1.slots i = some q at hq
    cases hi : b.initialized with
    | false => simpa [popNext_virgin hi] using hq
    | true => exact update_none_eq_some (by simpa only [h.popNext_eq hi] using hq)
  | advanceOne =>
    left
    change b.advanceOne.slots i = some q at hq
    exact update_none_eq_some (by simpa only [h.advanceOne_eq] using hq)
  | fastForward seq =>
    left
    have hslots := h.skipTo_slots hforward hfit
    change (b.skipTo seq).slots i = some q at hq
    rw [hslots] at hq
    exact (Ring.dropBelow_eq_some.mp hq).1
  | reset => simp [machine, reset] at hq

/-- Every stored number leaves room for the capacity in a `u64`. -/
def Roomy (b : JitterBuffer) : Prop := ∀ i p, b.slots i = some p → p.seq + bufferCapacity < 2 ^ 64

/-- Beside a roomy stored packet every sum of a call fits; without one there is
nothing to keep in the window. -/
theorem WellFormed.fits_or_empty (h : b.WellFormed) (hroom : b.Roomy) {op : Op}
    (hop : op.LeavesRoom) : op.Fits b ∨ ((b.slots = fun _ => none) ∧ ∀ p, op ≠ .insert p) := by
  have hcap := bufferCapacity_eq
  cases op with
  | insert p =>
    change p.seq + bufferCapacity < 2 ^ 64 at hop
    exact Or.inl ⟨fun _ => by omega, fun _ => hop⟩
  | reset => exact Or.inl trivial
  | _ =>
    by_cases hempty : b.slots = fun _ => none
    · exact Or.inr ⟨hempty, by simp⟩
    · obtain ⟨i, p, hp⟩ : ∃ i p, b.slots i = some p := by
        by_contra hno
        apply hempty
        funext i
        exact Option.eq_none_iff_forall_ne_some.mpr fun p hp => hno ⟨i, p, hp⟩
      have hlow := h.window.lower hp
      have hroom := hroom i p hp
      left
      simp only [Op.Fits]
      omega

/-- The scan of all slots counts the filled ones. -/
theorem WellFormed.contiguousDepth (h : b.WellFormed) : b.contiguousDepth = b.occupiedCount := by
  cases hi : b.initialized with
  | false => simp [JitterBuffer.contiguousDepth, occupiedCount, hi]
  | true =>
    simp only [JitterBuffer.contiguousDepth, occupiedCount, hi, if_true, h.count]
    have hindex : ∀ i < bufferCapacity, index (b.nextPlaySeq + UInt64.ofNat i) =
        Ring.slot bufferCapacity (b.playhead + i) := by
      intro i hlt
      apply Fin.ext
      rw [bufferCapacity_eq] at hlt
      change (b.nextPlaySeq + UInt64.ofNat i).toNat % 512 = (b.nextPlaySeq.toNat + i) % 512
      rw [UInt64.toNat_add, UInt64.toNat_ofNat']
      omega
    have hany : ∀ i, ((b.slots i).any fun p => b.nextPlaySeq ≤ p.seqNum) = (b.slots i).isSome := by
      intro i
      cases hs : b.slots i with
      | none => rfl
      | some p => exact decide_eq_true (h.window.lower hs)
    rw [← Ring.countP_range_slot b.playhead]
    apply List.countP_congr
    intro i hmem
    rw [hany, hindex i (List.mem_range.mp hmem)]

/-- A run whose inserted numbers leave room keeps the invariant throughout. -/
theorem wellFormed_of_run {ops : List Op} (hroom : ∀ op ∈ ops, op.LeavesRoom)
    (hforward : ∀ e ∈ machine.events ops, e.input.Forward e.before) :
    (∀ e ∈ machine.events ops, e.before.WellFormed ∧ e.before.Roomy) ∧
      (machine.run ops).WellFormed := by
  have hstep : ∀ (b : JitterBuffer) (op : Op), b.WellFormed ∧ b.Roomy →
      op.LeavesRoom ∧ op.Forward b →
      (machine.step b op).1.WellFormed ∧ (machine.step b op).1.Roomy := by
    intro b op ⟨hw, hb⟩ ⟨hop, hfwd⟩
    have hfit := hw.fits_or_empty hb hop
    constructor
    · rcases hfit with hfit | ⟨hempty, hne⟩
      · exact hw.step hfwd hfit
      · exact hw.step_of_empty hempty hfwd hne
    · intro i p hp
      have hinsert : ∀ q, op = .insert q → b.InsertFits q := by
        rintro q rfl
        exact hfit.resolve_right fun hempty => hempty.2 q rfl
      rcases hw.step_eq_some hfwd (hfit.imp_right And.left) hinsert hp with hold | rfl
      · exact hb i p hold
      · exact hop
  have hinit : machine.init.WellFormed ∧ machine.init.Roomy :=
    ⟨WellFormed.new, by simp [Roomy, machine, JitterBuffer.new]⟩
  have hok : ∀ e ∈ machine.events ops, e.input.LeavesRoom ∧ e.input.Forward e.before := by
    intro e he
    refine ⟨hroom _ ?_, hforward e he⟩
    obtain ⟨pre, post, hsplit⟩ := List.append_of_mem he
    obtain ⟨as, bs, rfl, _⟩ := machine.eventsFrom_split hsplit
    simp
  obtain ⟨hevents, hlast⟩ := machine.invariant hinit hstep hok
  exact ⟨fun e he => (hevents e he).1, hlast.1⟩

/-- In every reachable state each filled slot holds a packet of its residue inside
the window of the playhead, the maintained count is exact and agrees with the
full scan, stored numbers are pairwise distinct, and no insertion of the run
overwrites a packet of another number. -/
theorem representation_of_run (ops : List Op) (hroom : ∀ op ∈ ops, op.LeavesRoom)
    (hforward : ∀ e ∈ machine.events ops, e.input.Forward e.before) :
    (∀ i p, (machine.run ops).slots i = some p → p.seq % bufferCapacity = i.val ∧
      (machine.run ops).playhead ≤ p.seq ∧
      p.seq < (machine.run ops).playhead + bufferCapacity) ∧
    (machine.run ops).occupied =
      (Finset.univ.filter fun i => ((machine.run ops).slots i).isSome).card ∧
    (machine.run ops).contiguousDepth = (machine.run ops).occupiedCount ∧
    (∀ i j p q, (machine.run ops).slots i = some p → (machine.run ops).slots j = some q →
      p.seq = q.seq → i = j) ∧
    (∀ e ∈ machine.events ops, ∀ p q, e.input = .insert p → e.output ≠ .inserted .stale →
      (e.before.opened p).slots (index p.seqNum) = some q → q.seq = p.seq) := by
  obtain ⟨hevents, hw⟩ := wellFormed_of_run hroom hforward
  refine ⟨fun i p hp => ?_, hw.count, hw.contiguousDepth, ?_, ?_⟩
  · exact ⟨congrArg Fin.val (hw.window.residue hp), hw.window.lower hp, hw.window.upper hp⟩
  · exact fun i j p q hp hq hpq => hw.window.key_injective hp hq hpq
  · intro e he p q hinput houtput hq
    obtain ⟨hwe, hroomy⟩ := hevents e he
    have hstale : ¬e.before.IsStale p := by
      intro hs
      apply houtput
      rcases e.before.insert_cases p with ⟨_, heq⟩ | ⟨hr, _⟩ | ⟨hn, _⟩
      · rw [machine.eq_eventAt_of_mem he, hinput]
        simp [machine, heq]
      · have := hs.2.2
        have := hr.2
        omega
      · exact absurd hs hn
    have hfit : e.before.InsertFits p := by
      have hop : (Op.insert p).LeavesRoom := by
        rw [← hinput]
        obtain ⟨pre, post, hsplit⟩ := List.append_of_mem he
        obtain ⟨as, bs, rfl, _⟩ := machine.eventsFrom_split hsplit
        exact hroom _ (by simp)
      exact (hwe.fits_or_empty hroomy hop).resolve_right fun h => h.2 p rfl
    obtain ⟨hopened, _, hlo, hhi, _⟩ := hwe.opened hfit hstale
    exact hopened.window.key_eq_of_slot hlo hhi hq

/-- Arrivals out of order, a duplicate, a pop, both kinds of loss and a reset. -/
def mixedOps : List Op :=
  [.insert (.silent 7 0), .insert (.silent 9 1), .insert (.silent 9 2), .popNext, .advanceOne,
    .insert (.silent 300 3), .insert (.silent 800 4), .fastForward 700, .popNext, .reset,
    .insert (.silent 5 5)]

theorem representation_of_run_mixedOps :
    (machine.run mixedOps).contiguousDepth = (machine.run mixedOps).occupiedCount :=
  (representation_of_run mixedOps (by decide) (by decide)).2.2.1

end JitterBuffer

end Gemacast.Jitter
