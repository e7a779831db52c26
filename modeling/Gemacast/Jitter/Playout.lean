import Gemacast.Jitter.BufferRuns

/-!
# In-order playout

What the calls of the jitter buffer do to the stored partial map, and from it
the order in which a run hands packets out. A run without resets and restarts in
which no sequence addition wraps moves the playhead upwards only, so that every
number is handed out at most once and in increasing order.
-/

namespace Gemacast.Jitter

open Gemacast.Core

namespace JitterBuffer

variable {b : JitterBuffer}

/-- The map of a buffer whose slots are those of another one cut at `lo`. -/
theorem packetAt_of_dropBelow {b' : JitterBuffer} {lo : ℕ}
    (h : b'.slots = Ring.dropBelow RawPacket.seq lo b.slots) (k : ℕ) :
    b'.packetAt k = if lo ≤ k then b.packetAt k else none := by
  unfold packetAt
  rw [h, Ring.held_dropBelow]

/-- A packet found under a number carries it. -/
theorem seq_of_packetAt {k : ℕ} {p : RawPacket} (h : b.packetAt k = some p) : p.seq = k :=
  (Ring.held_eq_some.mp h).2

theorem slot_of_packetAt {k : ℕ} {p : RawPacket} (h : b.packetAt k = some p) :
    ∃ i, b.slots i = some p :=
  ⟨_, (Ring.held_eq_some.mp h).1⟩

/-- A skip forgets what lies below the new playhead. -/
theorem WellFormed.skipTo_packetAt (h : b.WellFormed) {newSeq : UInt64}
    (hle : b.playhead ≤ newSeq.toNat)
    (hfit : (newSeq.toNat < b.playhead + bufferCapacity → b.playhead + bufferCapacity < 2 ^ 64) ∨
      b.slots = fun _ => none) (k : ℕ) :
    (b.skipTo newSeq).packetAt k = if newSeq.toNat ≤ k then b.packetAt k else none :=
  packetAt_of_dropBelow (h.skipTo_slots hle hfit) k

/-- A pop forgets the packet of the playhead. -/
theorem WellFormed.popNext_packetAt (h : b.WellFormed) (hi : b.initialized = true) (k : ℕ) :
    b.popNext.1.packetAt k = if b.playhead + 1 ≤ k then b.packetAt k else none := by
  rw [h.popNext_eq hi]
  exact packetAt_of_dropBelow h.advance_slots k

/-- An advance forgets the packet of the playhead. -/
theorem WellFormed.advanceOne_packetAt (h : b.WellFormed) (k : ℕ) :
    b.advanceOne.packetAt k = if b.playhead + 1 ≤ k then b.packetAt k else none := by
  rw [h.advanceOne_eq]
  exact packetAt_of_dropBelow h.advance_slots k

/-- Storing inside the window sets one number and leaves the others. -/
theorem WellFormed.store_packetAt (h : b.WellFormed) {p : RawPacket} (hlo : b.playhead ≤ p.seq)
    (hhi : p.seq < b.playhead + bufferCapacity) (k : ℕ) :
    (b.store p).packetAt k = if k = p.seq then some p else b.packetAt k :=
  h.window.held_store hlo hhi k

/-- An accepted insertion forgets what lies below the playhead it leaves and stores
its packet. -/
theorem WellFormed.insert_packetAt (h : b.WellFormed) {p : RawPacket} (hfit : b.InsertFits p)
    (hstale : ¬b.IsStale p) (hrestart : ¬b.Restarts p) (k : ℕ) :
    (b.insert p).1.packetAt k = if k = p.seq then some p else
      if (b.insert p).1.playhead ≤ k then b.packetAt k else none := by
  rcases b.insert_cases p with ⟨hs, _⟩ | ⟨hr, _⟩ | ⟨_, _, heq⟩
  · exact absurd hs hstale
  · exact absurd hr hrestart
  · obtain ⟨hw, _, hlo, hhi, _, hkept⟩ := h.opened hfit hstale
    rw [heq, hw.store_packetAt hlo hhi, packetAt_of_dropBelow (hkept hrestart).1]
    rfl

/-- The playhead an accepted insertion leaves is at or below the packet, and not
below the one it found. -/
theorem WellFormed.insert_playhead (h : b.WellFormed) {p : RawPacket} (hfit : b.InsertFits p)
    (hstale : ¬b.IsStale p) (hrestart : ¬b.Restarts p) :
    (b.insert p).1.initialized = true ∧ (b.insert p).1.playhead ≤ p.seq ∧
      (b.initialized = true → b.playhead ≤ (b.insert p).1.playhead) := by
  rcases b.insert_cases p with ⟨hs, _⟩ | ⟨hr, _⟩ | ⟨_, _, heq⟩
  · exact absurd hs hstale
  · exact absurd hr hrestart
  · obtain ⟨_, hi, hlo, _, _, hkept⟩ := h.opened hfit hstale
    rw [heq]
    exact ⟨hi, hlo, (hkept hrestart).2⟩

/-- One executed call on the buffer. -/
abbrev Call := Event JitterBuffer Op Answer

/-- The packet a call accepts. -/
def Call.accepted (e : Call) : Option RawPacket :=
  match e.input, e.output with
  | .insert p, .inserted .accepted => some p
  | _, _ => none

/-- The packet a call hands out. -/
def Call.handedOut (e : Call) : Option RawPacket :=
  match e.output with
  | .popped p => p
  | _ => none

/-- A call that goes forward, is no reset and answers no restart. -/
def Call.Onward (e : Call) : Prop :=
  e.input.Forward e.before ∧ e.input ≠ .reset ∧ e.output ≠ .inserted .streamRestarted

/-- A call goes onward and none of its sequence additions wraps. -/
def Call.Sound (e : Call) : Prop := e.Onward ∧ e.input.Fits e.before

theorem Call.sound_eventAt {op : Op} : Call.Sound (machine.eventAt b op) ↔
    (op.Forward b ∧ op ≠ .reset ∧ (machine.step b op).2 ≠ .inserted .streamRestarted) ∧
      op.Fits b :=
  Iff.rfl

/-- Playout in order and at most once, as a property of the calls of a run. -/
structure PlaysInOrder (calls : List Call) : Prop where
  /-- The numbers handed out are strictly increasing. -/
  increasing : (calls.filterMap Call.handedOut).Pairwise fun p q => p.seq < q.seq
  /-- Whatever is handed out was accepted before. -/
  accepted_before : ∀ (pre : List Call) (e : Call) (post : List Call) (p : RawPacket),
    calls = pre ++ e :: post → e.handedOut = some p → ∃ a ∈ pre, a.accepted = some p
  /-- The pop that finds the playhead at an accepted number hands that number out, in
  the copy accepted last. -/
  returned : ∀ (pre : List Call) (e : Call) (mid : List Call) (x : Call) (post : List Call)
    (p : RawPacket), calls = pre ++ e :: (mid ++ x :: post) → e.accepted = some p →
    x.input = .popNext → x.before.playhead = p.seq →
    ∃ q, x.handedOut = some q ∧ q.seq = p.seq ∧
      ((∀ a ∈ mid, ∀ r, a.accepted = some r → r.seq ≠ p.seq) → q = p)
  /-- A playhead beyond an accepted number got there by the pop that handed the number
  out, or by an advance, a fast-forward or the skip of an insertion. -/
  passed : ∀ (pre : List Call) (e : Call) (mid : List Call) (x : Call) (post : List Call)
    (p : RawPacket), calls = pre ++ e :: (mid ++ x :: post) → e.accepted = some p →
    p.seq < x.after.playhead →
    ∃ y ∈ mid ++ [x], y.before.playhead ≤ p.seq ∧ p.seq < y.after.playhead ∧
      ((y.input = .popNext ∧ ∃ q, y.handedOut = some q ∧ q.seq = p.seq) ∨
        y.input = .advanceOne ∨ (∃ seq, y.input = .fastForward seq) ∨ ∃ q, y.input = .insert q)

/-- An insertion that does not restart the stream is stale or accepts its packet. -/
theorem insert_cases_of_no_restart {p : RawPacket} (h : (b.insert p).2 ≠ .streamRestarted) :
    b.insert p = (b, .stale) ∨
      (¬b.IsStale p ∧ ¬b.Restarts p ∧ (b.insert p).2 = .accepted) := by
  rcases b.insert_cases p with ⟨_, heq⟩ | ⟨_, heq⟩ | ⟨hs, hr, heq⟩
  · exact Or.inl heq
  · exact absurd (by rw [heq]) h
  · exact Or.inr ⟨hs, hr, by rw [heq]⟩

/-- Along a sound call an anchored buffer stays anchored and its playhead does not fall. -/
theorem WellFormed.sound_playhead (h : b.WellFormed) (hi : b.initialized = true) {op : Op}
    (hsound : Call.Sound (machine.eventAt b op)) :
    (machine.step b op).1.initialized = true ∧ b.playhead ≤ (machine.step b op).1.playhead := by
  obtain ⟨⟨hforward, hreset, hrestart⟩, hfit⟩ := Call.sound_eventAt.mp hsound
  cases op with
  | insert p =>
    have hr : (b.insert p).2 ≠ .streamRestarted :=
      fun heq => hrestart (congrArg Answer.inserted heq)
    rcases insert_cases_of_no_restart hr with heq | ⟨hs, hn, _⟩
    · simp only [machine, heq]
      exact ⟨hi, le_rfl⟩
    · obtain ⟨hinit, _, hle⟩ := h.insert_playhead hfit hs hn
      exact ⟨hinit, hle hi⟩
  | popNext =>
    have hpop := h.popNext_eq hi
    simp only [machine, hpop]
    refine ⟨hi, ?_⟩
    change b.playhead ≤ (b.nextPlaySeq + 1).toNat
    rw [playhead_succ (hfit hi)]
    omega
  | advanceOne =>
    simp only [machine, h.advanceOne_eq]
    refine ⟨hi, ?_⟩
    change b.playhead ≤ (b.nextPlaySeq + 1).toNat
    rw [playhead_succ hfit]
    omega
  | fastForward seq =>
    simp only [machine, fastForward, skipTo_initialized, skipTo_playhead]
    exact ⟨hi, hforward⟩
  | reset => exact absurd rfl hreset

/-- At and after the playhead a sound call changes the map only where it accepts. -/
theorem WellFormed.sound_packetAt (h : b.WellFormed) (hi : b.initialized = true) {op : Op}
    (hsound : Call.Sound (machine.eventAt b op)) {k : ℕ}
    (hk : (machine.step b op).1.playhead ≤ k) :
    (∃ p, Call.accepted (machine.eventAt b op) = some p ∧ p.seq = k ∧
      (machine.step b op).1.packetAt k = some p) ∨
    ((∀ p, Call.accepted (machine.eventAt b op) = some p → p.seq ≠ k) ∧
      (machine.step b op).1.packetAt k = b.packetAt k) := by
  obtain ⟨⟨hforward, hreset, hrestart⟩, hfit⟩ := Call.sound_eventAt.mp hsound
  cases op with
  | insert p =>
    have hr : (b.insert p).2 ≠ .streamRestarted :=
      fun heq => hrestart (congrArg Answer.inserted heq)
    rcases insert_cases_of_no_restart hr with heq | ⟨hs, hn, hout⟩
    · right
      simp [machine, Call.accepted, heq]
    · have hmap := h.insert_packetAt hfit hs hn k
      change (b.insert p).1.playhead ≤ k at hk
      have haccepted : Call.accepted (machine.eventAt b (.insert p)) = some p := by
        simp [machine, Call.accepted, hout]
      by_cases hkp : k = p.seq
      · rw [if_pos hkp] at hmap
        exact Or.inl ⟨p, haccepted, hkp.symm, hmap⟩
      · rw [if_neg hkp, if_pos hk] at hmap
        refine Or.inr ⟨fun q hq => ?_, hmap⟩
        obtain rfl : p = q := Option.some.inj (haccepted.symm.trans hq)
        exact fun heq => hkp heq.symm
  | popNext =>
    right
    refine ⟨by simp [machine, Call.accepted], ?_⟩
    have hplay : b.popNext.1.playhead = b.playhead + 1 := by
      rw [h.popNext_eq hi]
      exact playhead_succ (hfit hi)
    change b.popNext.1.playhead ≤ k at hk
    change b.popNext.1.packetAt k = _
    rw [h.popNext_packetAt hi, if_pos (by omega)]
  | advanceOne =>
    right
    refine ⟨by simp [machine, Call.accepted], ?_⟩
    have hplay : b.advanceOne.playhead = b.playhead + 1 := by
      rw [h.advanceOne_eq]
      exact playhead_succ hfit
    change b.advanceOne.playhead ≤ k at hk
    change b.advanceOne.packetAt k = _
    rw [h.advanceOne_packetAt, if_pos (by omega)]
  | fastForward seq =>
    right
    refine ⟨by simp [machine, Call.accepted], ?_⟩
    change seq.toNat ≤ k at hk
    change (b.skipTo seq).packetAt k = _
    rw [h.skipTo_packetAt hforward (Or.inl hfit), if_pos hk]
  | reset => exact absurd rfl hreset

/-- A pop of an anchored buffer hands out what is stored at the playhead. -/
theorem WellFormed.handedOut_popNext (h : b.WellFormed) (hi : b.initialized = true) :
    Call.handedOut (machine.eventAt b .popNext) = b.packetAt b.playhead := by
  simp [machine, Call.handedOut, h.popNext_eq hi]

/-- Only a pop of an anchored buffer hands a packet out: the one at the playhead,
past which it moves. -/
theorem WellFormed.handedOut_eq_some (h : b.WellFormed) {op : Op} {p : RawPacket}
    (hp : Call.handedOut (machine.eventAt b op) = some p) :
    op = .popNext ∧ b.initialized = true ∧ b.packetAt b.playhead = some p := by
  cases op with
  | popNext =>
    cases hi : b.initialized with
    | false => simp [machine, Call.handedOut, popNext_virgin hi] at hp
    | true => exact ⟨rfl, rfl, (h.handedOut_popNext hi).symm.trans hp⟩
  | _ => simp [machine, Call.handedOut] at hp

/-- Sound calls keep the window invariant, along a whole run. -/
theorem WellFormed.sound_run {ops : List Op} (h : b.WellFormed)
    (hsound : ∀ e ∈ machine.eventsFrom b ops, Call.Sound e) :
    (∀ e ∈ machine.eventsFrom b ops, e.before.WellFormed ∧ e.after.WellFormed) ∧
      (machine.runFrom b ops).WellFormed :=
  machine.invariant_from (p := fun s op => op.Forward s ∧ op.Fits s)
    (fun _ _ hs hok => hs.step hok.1 hok.2) h fun e he => ⟨(hsound e he).1.1, (hsound e he).2⟩

/-- A sound run of an anchored buffer ends anchored, at or after its first playhead. -/
theorem WellFormed.sound_run_playhead {ops : List Op} (h : b.WellFormed)
    (hi : b.initialized = true) (hsound : ∀ e ∈ machine.eventsFrom b ops, Call.Sound e) :
    (machine.runFrom b ops).initialized = true ∧
      b.playhead ≤ (machine.runFrom b ops).playhead := by
  induction ops generalizing b with
  | nil => exact ⟨hi, le_rfl⟩
  | cons op ops ih =>
    have hfirst : Call.Sound (machine.eventAt b op) := hsound _ (by simp)
    obtain ⟨hinit, hle⟩ := h.sound_playhead hi hfirst
    have hnext : (machine.step b op).1.WellFormed := h.step hfirst.1.1 hfirst.2
    obtain ⟨hlast, hrest⟩ := ih hnext hinit fun e he => hsound e (by simp [he])
    exact ⟨hlast, hle.trans hrest⟩

/-- The numbers a sound run hands out lie at or after the playhead it starts from. -/
theorem WellFormed.handedOut_ge {ops : List Op} (h : b.WellFormed) (hi : b.initialized = true)
    (hsound : ∀ e ∈ machine.eventsFrom b ops, Call.Sound e) :
    ∀ p ∈ (machine.eventsFrom b ops).filterMap Call.handedOut, b.playhead ≤ p.seq := by
  induction ops generalizing b with
  | nil => simp
  | cons op ops ih =>
    have hfirst : Call.Sound (machine.eventAt b op) := hsound _ (by simp)
    obtain ⟨hinit, hle⟩ := h.sound_playhead hi hfirst
    have hnext : (machine.step b op).1.WellFormed := h.step hfirst.1.1 hfirst.2
    have hrest := ih hnext hinit fun e he => hsound e (by simp [he])
    intro p hp
    rw [Machine.eventsFrom_cons, List.filterMap_cons] at hp
    cases hout : Call.handedOut (machine.eventAt b op) with
    | none =>
      rw [hout] at hp
      exact hle.trans (hrest p hp)
    | some q =>
      rw [hout] at hp
      rcases List.mem_cons.mp hp with rfl | hp
      · exact (seq_of_packetAt (h.handedOut_eq_some hout).2.2).ge
      · exact hle.trans (hrest p hp)

/-- The numbers a sound run hands out are strictly increasing. -/
theorem WellFormed.handedOut_increasing {ops : List Op} (h : b.WellFormed)
    (hsound : ∀ e ∈ machine.eventsFrom b ops, Call.Sound e) :
    ((machine.eventsFrom b ops).filterMap Call.handedOut).Pairwise fun p q => p.seq < q.seq := by
  induction ops generalizing b with
  | nil => simp
  | cons op ops ih =>
    have hfirst : Call.Sound (machine.eventAt b op) := hsound _ (by simp)
    have hnext : (machine.step b op).1.WellFormed := h.step hfirst.1.1 hfirst.2
    have htail : ∀ e ∈ machine.eventsFrom (machine.step b op).1 ops, Call.Sound e :=
      fun e he => hsound e (by simp [he])
    rw [Machine.eventsFrom_cons, List.filterMap_cons]
    cases hout : Call.handedOut (machine.eventAt b op) with
    | none => exact ih hnext htail
    | some p =>
      obtain ⟨rfl, hi, hp⟩ := h.handedOut_eq_some hout
      have hplay : (machine.step b .popNext).1.playhead = b.playhead + 1 := by
        simp only [machine, h.popNext_eq hi]
        exact playhead_succ (hfirst.2 hi)
      have hge := hnext.handedOut_ge (h.sound_playhead hi hfirst).1 htail
      refine List.pairwise_cons.mpr ⟨fun q hq => ?_, ih hnext htail⟩
      have hq := hge q hq
      rw [hplay] at hq
      rw [seq_of_packetAt hp]
      omega

/-- Along a sound run from an anchored buffer, what is stored at or after the final
playhead is the copy accepted last, or the one stored at the start. -/
theorem WellFormed.sound_run_packetAt {ops : List Op} (h : b.WellFormed)
    (hi : b.initialized = true) (hsound : ∀ e ∈ machine.eventsFrom b ops, Call.Sound e) {k : ℕ}
    {p : RawPacket} (hp : b.packetAt k = some p) (hk : (machine.runFrom b ops).playhead ≤ k) :
    ∃ q, (machine.runFrom b ops).packetAt k = some q ∧
      ((∀ a ∈ machine.eventsFrom b ops, ∀ r, Call.accepted a = some r → r.seq ≠ k) → q = p) := by
  induction ops generalizing b p with
  | nil => exact ⟨p, hp, fun _ => rfl⟩
  | cons op ops ih =>
    have hfirst : Call.Sound (machine.eventAt b op) := hsound _ (by simp)
    have hnext : (machine.step b op).1.WellFormed := h.step hfirst.1.1 hfirst.2
    have htail : ∀ e ∈ machine.eventsFrom (machine.step b op).1 ops, Call.Sound e :=
      fun e he => hsound e (by simp [he])
    obtain ⟨hinit, _⟩ := h.sound_playhead hi hfirst
    have hmono := (hnext.sound_run_playhead hinit htail).2
    rcases h.sound_packetAt hi hfirst (hmono.trans hk) with ⟨q, hacc, hq, hstored⟩ | ⟨hnone, hsame⟩
    · obtain ⟨r, hr, _⟩ := ih hnext hinit htail hstored hk
      refine ⟨r, hr, fun hno => ?_⟩
      exact absurd hq (hno _ (by simp) q hacc)
    · obtain ⟨r, hr, hlast⟩ := ih hnext hinit htail (hsame.trans hp) hk
      exact ⟨r, hr, fun hno => hlast fun a ha => hno a (by simp [ha])⟩

/-- A packet stored after a sound call was stored before it or is accepted by it. -/
theorem WellFormed.sound_eq_some (h : b.WellFormed) {op : Op}
    (hsound : Call.Sound (machine.eventAt b op)) {q : RawPacket} {i : Fin bufferCapacity}
    (hq : (machine.step b op).1.slots i = some q) :
    b.slots i = some q ∨ Call.accepted (machine.eventAt b op) = some q := by
  obtain ⟨⟨hforward, _, hrestart⟩, hfit⟩ := Call.sound_eventAt.mp hsound
  have hinsert : ∀ p, op = .insert p → b.InsertFits p := by
    rintro p rfl
    exact hfit
  rcases h.step_eq_some hforward (Or.inl hfit) hinsert hq with hold | rfl
  · exact Or.inl hold
  · have hr : (b.insert q).2 ≠ .streamRestarted :=
      fun heq => hrestart (congrArg Answer.inserted heq)
    rcases insert_cases_of_no_restart hr with heq | ⟨_, _, hout⟩
    · left
      simpa only [machine, heq] using hq
    · right
      simp [machine, Call.accepted, hout]

/-- Whatever a sound run stores was stored at its start or accepted by one of its calls. -/
theorem WellFormed.sound_run_eq_some {ops : List Op} (h : b.WellFormed)
    (hsound : ∀ e ∈ machine.eventsFrom b ops, Call.Sound e) {q : RawPacket}
    {i : Fin bufferCapacity} (hq : (machine.runFrom b ops).slots i = some q) :
    b.slots i = some q ∨ ∃ a ∈ machine.eventsFrom b ops, Call.accepted a = some q := by
  induction ops generalizing b with
  | nil => exact Or.inl hq
  | cons op ops ih =>
    have hfirst : Call.Sound (machine.eventAt b op) := hsound _ (by simp)
    have hnext : (machine.step b op).1.WellFormed := h.step hfirst.1.1 hfirst.2
    rcases ih hnext (fun e he => hsound e (by simp [he])) hq with hold | ⟨a, ha, hacc⟩
    · exact (h.sound_eq_some hfirst hold).imp_right fun hacc => ⟨_, by simp, hacc⟩
    · exact Or.inr ⟨a, by simp [ha], hacc⟩

/-- A sound call that accepts a packet leaves the buffer anchored at or before it, with
the packet stored. -/
theorem WellFormed.sound_accepted (h : b.WellFormed) {op : Op} {p : RawPacket}
    (hsound : Call.Sound (machine.eventAt b op))
    (hp : Call.accepted (machine.eventAt b op) = some p) :
    (machine.step b op).1.initialized = true ∧ (machine.step b op).1.playhead ≤ p.seq ∧
      (machine.step b op).1.packetAt p.seq = some p := by
  obtain ⟨⟨_, _, hrestart⟩, hfit⟩ := Call.sound_eventAt.mp hsound
  cases op with
  | insert q =>
    have hr : (b.insert q).2 ≠ .streamRestarted :=
      fun heq => hrestart (congrArg Answer.inserted heq)
    rcases insert_cases_of_no_restart hr with heq | ⟨hs, hn, hout⟩
    · simp [machine, Call.accepted, heq] at hp
    · obtain rfl : q = p := by simpa [machine, Call.accepted, hout] using hp
      obtain ⟨hi, hle, _⟩ := h.insert_playhead hfit hs hn
      have hmap := h.insert_packetAt hfit hs hn q.seq
      rw [if_pos rfl] at hmap
      exact ⟨hi, hle, hmap⟩
  | _ => simp [machine, Call.accepted] at hp

/-- The pop that finds the playhead of an anchored sound run at a stored number hands
the number out, in the copy accepted last. -/
theorem WellFormed.sound_returned {ops : List Op} (h : b.WellFormed) (hi : b.initialized = true)
    (hsound : ∀ e ∈ machine.eventsFrom b ops, Call.Sound e) {p : RawPacket}
    (hp : b.packetAt p.seq = some p) (hplay : (machine.runFrom b ops).playhead = p.seq) :
    ∃ q, Call.handedOut (machine.eventAt (machine.runFrom b ops) .popNext) = some q ∧
      q.seq = p.seq ∧
      ((∀ a ∈ machine.eventsFrom b ops, ∀ r, Call.accepted a = some r → r.seq ≠ p.seq) →
        q = p) := by
  obtain ⟨q, hq, hlast⟩ := h.sound_run_packetAt hi hsound hp hplay.le
  obtain ⟨hinit, _⟩ := h.sound_run_playhead hi hsound
  refine ⟨q, ?_, seq_of_packetAt hq, hlast⟩
  rw [(h.sound_run hsound).2.handedOut_popNext hinit, hplay, hq]

/-- The calls that move the playhead past a stored number are the pop that hands the
number out, an advance, a fast-forward or the skip of an insertion. -/
theorem WellFormed.sound_passed {ops : List Op} (h : b.WellFormed) (hi : b.initialized = true)
    (hsound : ∀ e ∈ machine.eventsFrom b ops, Call.Sound e) {p : RawPacket}
    (hp : b.packetAt p.seq = some p) (hle : b.playhead ≤ p.seq)
    (hpassed : p.seq < (machine.runFrom b ops).playhead) :
    ∃ y ∈ machine.eventsFrom b ops, y.before.playhead ≤ p.seq ∧ p.seq < y.after.playhead ∧
      ((y.input = .popNext ∧ ∃ q, Call.handedOut y = some q ∧ q.seq = p.seq) ∨
        y.input = .advanceOne ∨ (∃ seq, y.input = .fastForward seq) ∨
        ∃ q, y.input = .insert q) := by
  obtain ⟨y, hy, hbefore, hafter⟩ :=
    machine.exists_lost_from (P := fun s => s.playhead ≤ p.seq) hle (Nat.not_le.mpr hpassed)
  rw [Nat.not_le] at hafter
  refine ⟨y, hy, hbefore, hafter, ?_⟩
  obtain ⟨pre, post, hsplit⟩ := List.append_of_mem hy
  obtain ⟨as, bs, rfl, hpre, heq, _⟩ := machine.eventsFrom_split hsplit
  have hprefix : ∀ e ∈ machine.eventsFrom b as, Call.Sound e := by
    intro e he
    exact hsound e (by rw [hsplit, hpre]; simp [he])
  cases hin : y.input with
  | popNext =>
    left
    rw [hin] at heq
    have hys : Call.Sound y := hsound y hy
    have hw := (h.sound_run hprefix).2
    have hinit := (h.sound_run_playhead hi hprefix).1
    rw [heq] at hbefore hafter hys
    change (machine.runFrom b as).playhead ≤ p.seq at hbefore
    change p.seq < (machine.runFrom b as).popNext.1.playhead at hafter
    have hfit : (machine.runFrom b as).playhead + 1 < 2 ^ 64 := hys.2 hinit
    have hplay : (machine.runFrom b as).popNext.1.playhead =
        (machine.runFrom b as).playhead + 1 := by
      rw [hw.popNext_eq hinit]
      exact playhead_succ hfit
    obtain ⟨q, hq, hseq, _⟩ := h.sound_returned hi hprefix hp (by omega)
    refine ⟨rfl, q, ?_, hseq⟩
    rw [heq]
    exact hq
  | advanceOne => exact Or.inr (Or.inl rfl)
  | fastForward seq => exact Or.inr (Or.inr (Or.inl ⟨seq, rfl⟩))
  | insert q => exact Or.inr (Or.inr (Or.inr ⟨q, rfl⟩))
  | reset => exact absurd hin (hsound y hy).1.2.1

/-- The calls of a sound run play in order. -/
theorem playsInOrder_of_sound {ops : List Op}
    (hsound : ∀ e ∈ machine.events ops, Call.Sound e) : PlaysInOrder (machine.events ops) := by
  have hnew : machine.init.WellFormed := WellFormed.new
  -- the state in which a call accepts a packet, and the rest of the run from there
  have haccept : ∀ {pre e rest p}, machine.events ops = pre ++ e :: rest →
      Call.accepted e = some p → ∃ bs, rest = machine.eventsFrom e.after bs ∧
        e.after.WellFormed ∧ e.after.initialized = true ∧ e.after.playhead ≤ p.seq ∧
        e.after.packetAt p.seq = some p := by
    intro pre e rest p hsplit hp
    obtain ⟨as, bs, rfl, hpre, heq, hrest⟩ := machine.eventsFrom_split hsplit
    have hprefix : ∀ a ∈ machine.eventsFrom machine.init as, Call.Sound a := by
      intro a ha
      exact hsound a (by rw [hsplit, hpre]; simp [ha])
    have he : Call.Sound e := hsound e (by rw [hsplit]; simp)
    have hw := (hnew.sound_run hprefix).2
    rw [heq] at hp he
    obtain ⟨hi, hle, hmap⟩ := hw.sound_accepted he hp
    refine ⟨bs, hrest, ?_⟩
    rw [heq]
    exact ⟨hw.step he.1.1 he.2, hi, hle, hmap⟩
  refine ⟨hnew.handedOut_increasing hsound, ?_, ?_, ?_⟩
  · intro pre e post p hsplit hp
    obtain ⟨as, bs, rfl, hpre, heq, _⟩ := machine.eventsFrom_split hsplit
    have hprefix : ∀ a ∈ machine.eventsFrom machine.init as, Call.Sound a := by
      intro a ha
      exact hsound a (by rw [hsplit, hpre]; simp [ha])
    rw [heq] at hp
    obtain ⟨_, _, hstored⟩ := (hnew.sound_run hprefix).2.handedOut_eq_some hp
    obtain ⟨i, hslot⟩ := slot_of_packetAt hstored
    rcases hnew.sound_run_eq_some hprefix hslot with hinit | haccepted
    · simp [machine, JitterBuffer.new] at hinit
    · rw [hpre]
      exact haccepted
  · intro pre e mid x post p hsplit hp hpop hplay
    obtain ⟨bs, hrest, hw, hi, hle, hmap⟩ := haccept hsplit hp
    obtain ⟨cs, ds, rfl, hmid, heq, _⟩ := machine.eventsFrom_split hrest.symm
    have htail : ∀ a ∈ machine.eventsFrom e.after cs, Call.Sound a := by
      intro a ha
      exact hsound a (by rw [hsplit, hmid]; simp [ha])
    rw [heq] at hplay
    obtain ⟨q, hq, hseq, hlast⟩ := hw.sound_returned hi htail hmap hplay
    rw [hmid, heq, hpop]
    exact ⟨q, hq, hseq, hlast⟩
  · intro pre e mid x post p hsplit hp hpassed
    obtain ⟨bs, hrest, hw, hi, hle, hmap⟩ := haccept hsplit hp
    obtain ⟨cs, ds, rfl, hmid, heq, _⟩ := machine.eventsFrom_split hrest.symm
    have hevents : machine.eventsFrom e.after (cs ++ [x.input]) = mid ++ [x] := by
      rw [Machine.eventsFrom_append, ← hmid, Machine.eventsFrom_cons, Machine.eventsFrom_nil, ← heq]
    have htail : ∀ a ∈ machine.eventsFrom e.after (cs ++ [x.input]), Call.Sound a := by
      intro a ha
      rw [hevents] at ha
      apply hsound a
      rw [hsplit]
      simp only [List.mem_append, List.mem_cons] at ha ⊢
      tauto
    have hlast : machine.runFrom e.after (cs ++ [x.input]) = x.after := by
      rw [Machine.runFrom_append, Machine.runFrom_cons, Machine.runFrom_nil]
      rw [heq]
      rfl
    rw [← hevents]
    exact hw.sound_passed hi htail hmap hle (by rw [hlast]; exact hpassed)

instance : DecidablePred Call.Onward := fun _ => inferInstanceAs (Decidable (_ ∧ _ ∧ _))

/-- A run without reset and restart whose fast-forwards go forward plays in order,
provided that no sequence addition of its calls wraps. -/
theorem playout_of_run (ops : List Op) (honward : ∀ e ∈ machine.events ops, Call.Onward e)
    (hfits : ∀ e ∈ machine.events ops, e.input.Fits e.before) :
    PlaysInOrder (machine.events ops) :=
  playsInOrder_of_sound fun e he => ⟨honward e he, hfits e he⟩

/-- Arrivals out of order with a duplicate, an overflow skip and each kind of move. -/
def onwardOps : List Op :=
  [.insert (.silent 7 0), .insert (.silent 9 1), .insert (.silent 9 2), .popNext, .advanceOne,
    .popNext, .insert (.silent 3 3), .insert (.silent 800 4), .fastForward 799, .advanceOne,
    .popNext]

theorem playout_of_run_onwardOps :
    ((machine.events onwardOps).filterMap Call.handedOut).Pairwise fun p q => p.seq < q.seq :=
  (playout_of_run onwardOps (by decide +kernel) (by decide +kernel)).increasing

example :
    ((machine.events onwardOps).filterMap Call.handedOut).map RawPacket.seq = [7, 9, 800] := by
  decide +kernel

/-- The last number of the word is handed out, the playhead wraps to zero and number
zero is handed out after it. -/
def wrappingOps : List Op :=
  [.insert (.silent 18446744073709551615 0), .fastForward 18446744073709551615, .popNext,
    .insert (.silent 0 1), .popNext]

theorem not_playsInOrder_wrappingOps : ¬ ∀ ops : List Op,
    (∀ e ∈ machine.events ops, Call.Onward e) → PlaysInOrder (machine.events ops) := by
  intro h
  have hincreasing := (h wrappingOps (by decide +kernel)).increasing
  have hseqs := hincreasing.map RawPacket.seq fun _ _ hlt => hlt
  have hout : ((machine.events wrappingOps).filterMap Call.handedOut).map RawPacket.seq =
      [18446744073709551615, 0] := by decide +kernel
  rw [hout] at hseqs
  simp at hseqs

end JitterBuffer

end Gemacast.Jitter
