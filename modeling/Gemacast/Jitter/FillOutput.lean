import Gemacast.Core.Machine
import Gemacast.Core.VecDeque
import Gemacast.Jitter.Callback

/-!
# Filling the output of the device

The device asks for buffers of any size, the jitter buffer produces blocks of any size.
Whatever the sizes, and wherever the queue between them wraps around, the buffers hold
the produced samples in order, with zeros only where nothing was produced.
-/

namespace Gemacast.Jitter

open Gemacast.Core

/-- A buffer that the device wants filled. -/
structure Demand (F : Type) where
  /-- The number of samples. -/
  size : ℕ
  /-- The playback volume. -/
  volume : F

section Produce

variable {F σ : Type} (process : σ → σ × List F)

/-- Successive calls of the producer: the state reached and the blocks produced. -/
def produce : ℕ → σ → σ × List (List F)
  | 0, s => (s, [])
  | calls + 1, s =>
    let (s, block) := process s
    let (s, blocks) := produce calls s
    (s, block :: blocks)

/-- Later calls go on where earlier ones stopped. -/
theorem produce_add (j k : ℕ) (s : σ) : produce process (j + k) s =
    ((produce process k (produce process j s).1).1,
      (produce process j s).2 ++ (produce process k (produce process j s).1).2) := by
  induction j generalizing s with
  | zero =>
    rw [Nat.zero_add]
    rfl
  | succ j ih =>
    rw [Nat.add_right_comm]
    change (_, _) = _
    rw [ih]
    rfl

/-- More calls go on where fewer stopped. -/
theorem produce_prefix {calls calls' : ℕ} (h : calls ≤ calls') (s : σ) :
    (produce process calls s).2 <+: (produce process calls' s).2 := by
  obtain ⟨more, rfl⟩ := Nat.exists_eq_add_of_le h
  rw [produce_add]
  exact List.prefix_append _ _

/-- Calls that all produce something produce no empty block. -/
theorem not_mem_produce {process : σ → σ × List F} (hfull : ∀ s, (process s).2 ≠ [])
    (calls : ℕ) (s : σ) : [] ∉ (produce process calls s).2 := by
  induction calls generalizing s with
  | zero => simp [produce]
  | succ calls ih =>
    intro hmem
    obtain hfirst | hlater := List.mem_cons.mp hmem
    · exact hfull s hfirst.symm
    · exact ih _ hlater

end Produce

section Fill

variable {F σ δ : Type} [Binary32 F] (Q : VecDeque F δ) (process : σ → σ × List F)

/-- Append one produced block to an empty queue. -/
def refillEmpty (s : σ) (d : δ) : σ × δ :=
  if Q.len d = 0 then
    let (s, block) := process s
    (s, Q.extend d block)
  else (s, d)

/-- Copy `take` samples out of the two slices, at the given volume. -/
def copyOut (d : δ) (take : ℕ) (volume : F) : List F :=
  let (front, back) := Q.asSlices d
  let fromFront := min take front.length
  let fromBack := take - fromFront
  (front.take fromFront).map (· * volume) ++ (back.take fromBack).map (· * volume)

/-- The loop of `fill_output` for the samples still needed, in at most `fuel` rounds. -/
def fillLoop (volume : F) : ℕ → σ → δ → ℕ → Option (σ × δ × List F)
  | _, s, d, 0 => some (s, d, [])
  | 0, _, _, _ + 1 => none
  | fuel + 1, s, d, need + 1 =>
    let (s, d) := refillEmpty Q process s d
    let take := min (Q.len d) (need + 1)
    if take = 0 then some (s, d, List.replicate (need + 1) 0.0)
    else
      (fillLoop volume fuel s (Q.drain d take) (need + 1 - take)).map fun (s, d', rest) =>
        (s, d', copyOut Q d take volume ++ rest)

/-- Fill one buffer. Every round copies a sample, so that no more rounds than samples are
needed. -/
def fillOutput (s : σ) (d : δ) (demand : Demand F) : Option (σ × δ × List F) :=
  fillLoop Q process demand.volume demand.size s d demand.size

theorem copyOut_eq (d : δ) (take : ℕ) (volume : F) :
    copyOut Q d take volume = ((Q.contents d).take take).map (· * volume) := by
  rw [← Q.take_slices, List.map_append]
  rfl

/-- One buffer filled with the samples `taken` while the blocks were produced: the samples
are the next ones of the queue and the blocks, and zeros follow them exactly when the last
block was empty. -/
structure Fills (s : σ) (d : δ) (demand : Demand F) (s' : σ) (d' : δ) (output taken : List F)
    (blocks : List (List F)) : Prop where
  output_eq : output =
    taken.map (· * demand.volume) ++ List.replicate (demand.size - taken.length) 0.0
  fits : taken.length ≤ demand.size
  conserved : taken ++ Q.contents d' = Q.contents d ++ blocks.flatten
  produced : produce process blocks.length s = (s', blocks)
  zeros : taken.length < demand.size ↔ [] ∈ blocks
  last : ∀ block ∈ blocks.dropLast, block ≠ []

variable {Q process} {s s' : σ} {d d' : δ} {need take : ℕ} {volume : F} {rest taken : List F}
  {blocks : List (List F)}

/-- A round copies samples that the queue holds. -/
theorem Fills.copied (htake : take ≤ Q.len d) (hneed : take ≤ need)
    (h : Fills Q process s (Q.drain d take) ⟨need - take, volume⟩ s' d' rest taken blocks) :
    Fills Q process s d ⟨need, volume⟩ s' d' (copyOut Q d take volume ++ rest)
      ((Q.contents d).take take ++ taken) blocks := by
  have hlength : ((Q.contents d).take take ++ taken).length = take + taken.length := by
    rw [List.length_append, List.length_take, Q.length_contents, Nat.min_eq_left htake]
  have hfits := h.fits
  have hzeros := h.zeros
  dsimp only at hfits hzeros
  refine ⟨?_, ?_, ?_, h.produced, ?_, h.last⟩
  · rw [copyOut_eq, h.output_eq, List.map_append, hlength, List.append_assoc, Nat.sub_sub]
  · rw [hlength]
    dsimp only
    omega
  · rw [List.append_assoc, h.conserved, Q.drain_contents, ← List.append_assoc,
      List.take_append_drop]
  · rw [hlength, ← hzeros]
    dsimp only
    omega

/-- A round goes on with the block produced for an empty queue. -/
theorem Fills.refilled {s₁ : σ} {block output : List F} (hcall : process s = (s₁, block))
    (hblock : block ≠ [])
    (h : Fills Q process s₁ (Q.extend d block) ⟨need, volume⟩ s' d' output taken blocks) :
    Fills Q process s d ⟨need, volume⟩ s' d' output taken (block :: blocks) := by
  refine ⟨h.output_eq, h.fits, ?_, ?_, ?_, ?_⟩
  · rw [h.conserved, Q.extend_contents, List.flatten_cons, List.append_assoc]
  · rw [List.length_cons, produce, hcall]
    dsimp only
    rw [h.produced]
  · rw [h.zeros, List.mem_cons]
    exact ⟨Or.inr, fun hmem => hmem.resolve_left hblock.symm⟩
  · cases blocks with
    | nil => simp
    | cons next blocks =>
      intro b hb
      rw [List.dropLast_cons_cons, List.mem_cons] at hb
      obtain rfl | hb := hb
      · exact hblock
      · exact h.last b hb

/-- When nothing is produced for an empty queue, the rest of the buffer is silent. -/
theorem Fills.silent (hempty : Q.len d = 0) (hcall : process s = (s', [])) (hneed : 0 < need) :
    Fills Q process s d ⟨need, volume⟩ s' (Q.extend d []) (List.replicate need 0.0) [] [[]] := by
  have hcontents : Q.contents d = [] := by
    rw [← List.length_eq_zero_iff, Q.length_contents, hempty]
  refine ⟨rfl, Nat.zero_le _, ?_, ?_, ?_, by simp⟩
  · rw [Q.extend_contents, hcontents]
    rfl
  · simp only [List.length_singleton, produce, hcall]
  · simpa using hneed

omit [Binary32 F] in
theorem refillEmpty_of_empty {block : List F} (hempty : Q.len d = 0)
    (hcall : process s = (s', block)) : refillEmpty Q process s d = (s', Q.extend d block) := by
  rw [refillEmpty, if_pos hempty, hcall]

omit [Binary32 F] in
theorem refillEmpty_of_held (hheld : Q.len d ≠ 0) : refillEmpty Q process s d = (s, d) :=
  if_neg hheld

/-- No sample is needed any more. -/
theorem Fills.done (s : σ) (d : δ) (volume : F) :
    Fills Q process s d ⟨0, volume⟩ s d [] [] [] :=
  ⟨rfl, le_rfl, (List.append_nil _).symm, rfl, by simp, by simp⟩

variable (Q process) in
/-- With as many rounds as samples the loop returns, and fills the buffer. -/
theorem fillLoop_spec (volume : F) (fuel : ℕ) (s : σ) (d : δ) {need : ℕ} (hfuel : need ≤ fuel) :
    ∃ s' d' output taken blocks, fillLoop Q process volume fuel s d need = some (s', d', output) ∧
      Fills Q process s d ⟨need, volume⟩ s' d' output taken blocks := by
  induction fuel generalizing s d need with
  | zero =>
    obtain rfl := Nat.le_zero.mp hfuel
    exact ⟨s, d, [], [], [], rfl, .done s d volume⟩
  | succ fuel ih =>
    obtain _ | need := need
    · exact ⟨s, d, [], [], [], rfl, .done s d volume⟩
    -- a round on a queue that holds something
    have hround : ∀ (s : σ) (d : δ), 0 < Q.len d → ∃ s' d' output taken blocks,
        (if min (Q.len d) (need + 1) = 0 then some (s, d, List.replicate (need + 1) 0.0)
          else (fillLoop Q process volume fuel s (Q.drain d (min (Q.len d) (need + 1)))
            (need + 1 - min (Q.len d) (need + 1))).map fun (s, d', rest) =>
              (s, d', copyOut Q d (min (Q.len d) (need + 1)) volume ++ rest)) =
          some (s', d', output) ∧
        Fills Q process s d ⟨need + 1, volume⟩ s' d' output taken blocks := by
      intro s d hlen
      rw [if_neg (by omega)]
      obtain ⟨s', d', rest, taken, blocks, heq, hfills⟩ :=
        ih s (Q.drain d (min (Q.len d) (need + 1)))
          (show need + 1 - min (Q.len d) (need + 1) ≤ fuel by omega)
      rw [heq]
      exact ⟨_, _, _, _, _, rfl, hfills.copied (Nat.min_le_left _ _) (Nat.min_le_right _ _)⟩
    rw [fillLoop]
    by_cases hempty : Q.len d = 0
    · cases hcall : process s with
      | mk s₁ block =>
        rw [refillEmpty_of_empty hempty hcall]
        dsimp only
        have hlen : Q.len (Q.extend d block) = block.length := by
          rw [← Q.length_contents, Q.extend_contents, List.length_append, Q.length_contents,
            hempty, Nat.zero_add]
        by_cases hblock : block = []
        · rw [hlen, hblock, List.length_nil, Nat.zero_min, if_pos rfl]
          rw [hblock] at hcall
          exact ⟨_, _, _, _, _, rfl, .silent hempty hcall (Nat.succ_pos _)⟩
        · have hpos : 0 < Q.len (Q.extend d block) := by
            rw [hlen]
            exact List.length_pos_of_ne_nil hblock
          obtain ⟨s', d', output, taken, blocks, heq, hfills⟩ := hround s₁ _ hpos
          exact ⟨s', d', output, taken, _, heq, hfills.refilled hcall hblock⟩
    · rw [refillEmpty_of_held hempty]
      exact hround s d (Nat.pos_of_ne_zero hempty)

end Fill

section Run

variable {F σ δ ε : Type} [Binary32 F] (Q : VecDeque F δ) (process : σ → σ × List F)
  (outside : ε → σ → σ)

/-- What happens between the device and the producer. -/
inductive Turn (F ε : Type)
  /-- The producer's state changes while the device asks for nothing. -/
  | outside (e : ε)
  /-- The device wants a buffer filled. -/
  | fill (demand : Demand F)

/-- One turn: the state and the queue, and the buffer filled if the loop returns. -/
def serve : σ × δ → Turn F ε → (σ × δ) × Option (List F)
  | (s, d), .outside e => ((outside e s, d), some [])
  | (s, d), .fill demand =>
    match fillOutput Q process s d demand with
    | some (s, d, output) => ((s, d), some output)
    | none => ((s, d), none)

/-- The playback queue between a producer and the device, as a machine. -/
def playback (s : σ) (d : δ) : Machine (σ × δ) (Turn F ε) (Option (List F)) where
  init := (s, d)
  step := serve Q process outside

/-- The volume-scaled samples and the zeros of a turn that took the samples `taken`. -/
def Turn.scaled (taken : List F) : Turn F ε → List F
  | .outside _ => []
  | .fill demand =>
    taken.map (· * demand.volume) ++ List.replicate (demand.size - taken.length) 0.0

/-- The samples a turn demands. -/
def Turn.size : Turn F ε → ℕ
  | .outside _ => 0
  | .fill demand => demand.size

/-- Every buffer of the turn is wanted at one volume. -/
def Turn.At (volume : F) : Turn F ε → Prop
  | .outside _ => True
  | .fill demand => demand.volume = volume

/-- A turn returns, having taken samples from the queue and the blocks it had produced. -/
def Serves (e : Event (σ × δ) (Turn F ε) (Option (List F))) (taken : List F)
    (blocks : List (List F)) : Prop :=
  match e.input with
  | .outside x =>
    e.output = some [] ∧ e.after = (outside x e.before.1, e.before.2) ∧ taken = [] ∧ blocks = []
  | .fill demand => ∃ output, e.output = some output ∧
    Fills Q process e.before.1 e.before.2 demand e.after.1 e.after.2 output taken blocks

/-- Every turn returns. -/
theorem serve_serves (s₀ s : σ) (d₀ d : δ) (turn : Turn F ε) : ∃ taken blocks,
    Serves Q process outside ((playback Q process outside s₀ d₀).eventAt (s, d) turn)
      taken blocks := by
  cases turn with
  | outside e => exact ⟨[], [], rfl, rfl, rfl, rfl⟩
  | fill demand =>
    obtain ⟨s', d', output, taken, blocks, heq, hfills⟩ :=
      fillLoop_spec Q process demand.volume demand.size s d le_rfl
    refine ⟨taken, blocks, output, ?_⟩
    simp only [Machine.eventAt, playback, serve, fillOutput, heq]
    exact ⟨trivial, hfills⟩

variable {Q process outside} {e : Event (σ × δ) (Turn F ε) (Option (List F))} {taken : List F}
  {blocks : List (List F)}

theorem Serves.output_eq (h : Serves Q process outside e taken blocks) :
    e.output = some (e.input.scaled taken) := by
  cases hin : e.input with
  | outside x => rw [Serves, hin] at h; exact h.1
  | fill demand =>
    rw [Serves, hin] at h
    obtain ⟨output, hout, hfills⟩ := h
    rw [hout, hfills.output_eq]
    rfl

theorem Serves.conserved (h : Serves Q process outside e taken blocks) :
    taken ++ Q.contents e.after.2 = Q.contents e.before.2 ++ blocks.flatten := by
  cases hin : e.input with
  | outside x =>
    rw [Serves, hin] at h
    obtain ⟨-, hafter, rfl, rfl⟩ := h
    rw [hafter, List.flatten_nil, List.append_nil, List.nil_append]
  | fill demand =>
    rw [Serves, hin] at h
    obtain ⟨output, -, hfills⟩ := h
    exact hfills.conserved

/-- Where no call produced nothing, a turn takes what it demands. -/
theorem Serves.length_taken (h : Serves Q process outside e taken blocks) (hblocks : [] ∉ blocks) :
    taken.length = e.input.size := by
  cases hin : e.input with
  | outside x =>
    rw [Serves, hin] at h
    obtain ⟨-, -, rfl, -⟩ := h
    rfl
  | fill demand =>
    rw [Serves, hin] at h
    obtain ⟨output, -, hfills⟩ := h
    exact Nat.le_antisymm hfills.fits (not_lt.mp (hblocks ∘ hfills.zeros.mp))

/-- A turn that demands samples lets the producer go on where it stopped. -/
theorem Serves.produced (h : Serves Q process outside e taken blocks) {demand : Demand F}
    (hin : e.input = .fill demand) :
    produce process blocks.length e.before.1 = (e.after.1, blocks) := by
  rw [Serves, hin] at h
  obtain ⟨output, -, hfills⟩ := h
  exact hfills.produced

/-- The samples taken and the blocks produced in the turns of a run. -/
def Traces (Q : VecDeque F δ) (process : σ → σ × List F) (outside : ε → σ → σ) :
    List (Event (σ × δ) (Turn F ε) (Option (List F))) → List (List F × List (List F)) → Prop :=
  List.Forall₂ fun e trace => Serves Q process outside e trace.1 trace.2

variable {s₀ s : σ} {d₀ d : δ} {turns : List (Turn F ε)} {traces : List (List F × List (List F))}

variable (Q process outside) in
theorem exists_traces (s₀ s : σ) (d₀ d : δ) (turns : List (Turn F ε)) :
    ∃ traces, Traces Q process outside
      ((playback Q process outside s₀ d₀).eventsFrom (s, d) turns) traces := by
  induction turns generalizing s d with
  | nil => exact ⟨[], .nil⟩
  | cons turn turns ih =>
    obtain ⟨taken, blocks, hfirst⟩ := serve_serves Q process outside s₀ s d₀ d turn
    obtain ⟨traces, hrest⟩ :=
      ih ((playback Q process outside s₀ d₀).step (s, d) turn).1.1
        ((playback Q process outside s₀ d₀).step (s, d) turn).1.2
    exact ⟨(taken, blocks) :: traces, .cons hfirst hrest⟩

/-- Over a run, the samples taken are those queued at its start and then the blocks. -/
theorem Traces.conserved
    (h : Traces Q process outside ((playback Q process outside s₀ d₀).eventsFrom (s, d) turns)
      traces) :
    traces.flatMap Prod.fst ++
        Q.contents ((playback Q process outside s₀ d₀).runFrom (s, d) turns).2 =
      Q.contents d ++ (traces.flatMap Prod.snd).flatten := by
  induction turns generalizing s d traces with
  | nil =>
    cases h
    exact (List.append_nil _).symm
  | cons turn turns ih =>
    cases h with
    | @cons _ trace _ traces hfirst hrest =>
      have hstep := hfirst.conserved
      rw [List.flatMap_cons, List.flatMap_cons, List.flatten_append, List.append_assoc,
        Machine.runFrom_cons, ih hrest, ← List.append_assoc, ← List.append_assoc]
      exact congrArg (· ++ (traces.flatMap Prod.snd).flatten) hstep

/-- The volume-scaled samples of the turns, one after the other. -/
theorem Traces.outputs_eq
    (h : Traces Q process outside ((playback Q process outside s₀ d₀).eventsFrom (s, d) turns)
      traces) :
    ((playback Q process outside s₀ d₀).eventsFrom (s, d) turns).map Event.output =
      List.zipWith (fun turn trace => some (Turn.scaled trace.1 turn)) turns traces := by
  induction turns generalizing s d traces with
  | nil =>
    cases h
    rfl
  | cons turn turns ih =>
    cases h with
    | cons hfirst hrest =>
      rw [Machine.eventsFrom_cons, List.map_cons, ih hrest, hfirst.output_eq]
      rfl

/-- At one volume, the turn that takes all it demands outputs the scaled samples. -/
theorem Serves.output_of_full {volume : F} (h : Serves Q process outside e taken blocks)
    (hvolume : e.input.At volume) (hblocks : [] ∉ blocks) :
    e.output = some (taken.map (· * volume)) := by
  have hlength := h.length_taken hblocks
  rw [h.output_eq]
  cases hin : e.input with
  | outside x =>
    rw [hin] at hlength
    rw [List.length_eq_zero_iff.mp hlength]
    rfl
  | fill demand =>
    rw [hin] at hlength hvolume
    cases hvolume
    rw [Turn.scaled, hlength]
    simp [Turn.size]

/-- Where no call produced nothing, the outputs at one volume are the scaled samples. -/
theorem Traces.outputs_of_full {volume : F}
    (h : Traces Q process outside ((playback Q process outside s₀ d₀).eventsFrom (s, d) turns)
      traces) (hvolume : ∀ turn ∈ turns, turn.At volume) (hblocks : [] ∉ traces.flatMap Prod.snd) :
    ((playback Q process outside s₀ d₀).eventsFrom (s, d) turns).flatMap
        (fun e => e.output.getD []) = (traces.flatMap Prod.fst).map (· * volume) ∧
      (traces.flatMap Prod.fst).length = (turns.map Turn.size).sum := by
  induction turns generalizing s d traces with
  | nil =>
    cases h
    exact ⟨rfl, rfl⟩
  | cons turn turns ih =>
    cases h with
    | @cons _ trace _ traces hfirst hrest =>
      rw [List.flatMap_cons, List.mem_append, not_or] at hblocks
      obtain ⟨houtputs, hlength⟩ :=
        ih hrest (fun turn hmem => hvolume turn (List.mem_cons_of_mem _ hmem)) hblocks.2
      constructor
      · rw [Machine.eventsFrom_cons, List.flatMap_cons, houtputs, List.flatMap_cons,
          List.map_append, hfirst.output_of_full (hvolume turn List.mem_cons_self) hblocks.1]
        rfl
      · rw [List.flatMap_cons, List.length_append, hlength, List.map_cons, List.sum_cons,
          hfirst.length_taken hblocks.1]
        rfl

/-- With nothing but demands, the blocks are those of successive calls from the start. -/
theorem Traces.produced
    (h : Traces Q process outside ((playback Q process outside s₀ d₀).eventsFrom (s, d) turns)
      traces) (hdemands : ∀ turn ∈ turns, ∃ demand, turn = .fill demand) :
    produce process (traces.flatMap Prod.snd).length s =
      (((playback Q process outside s₀ d₀).runFrom (s, d) turns).1, traces.flatMap Prod.snd) := by
  induction turns generalizing s d traces with
  | nil =>
    cases h
    rfl
  | cons turn turns ih =>
    cases h with
    | @cons _ trace _ traces hfirst hrest =>
      obtain ⟨demand, hdemand⟩ := hdemands turn List.mem_cons_self
      have hnext := ih hrest fun turn hmem => hdemands turn (List.mem_cons_of_mem _ hmem)
      have hproduced := hfirst.produced hdemand
      dsimp only [Machine.eventAt] at hproduced
      rw [List.flatMap_cons, List.length_append, produce_add, hproduced]
      dsimp only
      rw [hnext]
      rfl

/-- With nothing but demands, the samples taken are the first of one stream. -/
theorem Traces.taken_prefix
    (h : Traces Q process outside ((playback Q process outside s₀ d₀).eventsFrom (s, d) turns)
      traces) (hdemands : ∀ turn ∈ turns, ∃ demand, turn = .fill demand) {calls : ℕ}
    (hcalls : (traces.flatMap Prod.snd).length ≤ calls) :
    traces.flatMap Prod.fst <+: Q.contents d ++ (produce process calls s).2.flatten := by
  obtain ⟨rest, hrest⟩ := produce_prefix process hcalls s
  rw [h.produced hdemands] at hrest
  rw [← hrest, List.flatten_append, ← List.append_assoc, ← h.conserved, List.append_assoc]
  exact List.prefix_append _ _

/-- Where every call produces something, the same number of samples demanded at the same
volume is filled with the same samples, whatever the sizes of the buffers. -/
theorem outputs_eq_of_size_eq {volume : F} {turns' : List (Turn F ε)}
    (hfull : ∀ s, (process s).2 ≠ [])
    (hturns : ∀ turn ∈ turns, (∃ demand, turn = .fill demand) ∧ turn.At volume)
    (hturns' : ∀ turn ∈ turns', (∃ demand, turn = .fill demand) ∧ turn.At volume)
    (hsize : (turns.map Turn.size).sum = (turns'.map Turn.size).sum) :
    ((playback Q process outside s d).events turns).flatMap (fun e => e.output.getD []) =
      ((playback Q process outside s d).events turns').flatMap (fun e => e.output.getD []) := by
  -- a run takes the first samples of one stream
  have hrun : ∀ ts : List (Turn F ε),
      (∀ turn ∈ ts, (∃ demand, turn = .fill demand) ∧ turn.At volume) →
      ∃ taken calls₀, (∀ calls, calls₀ ≤ calls →
          taken <+: Q.contents d ++ (produce process calls s).2.flatten) ∧
        taken.length = (ts.map Turn.size).sum ∧
        ((playback Q process outside s d).events ts).flatMap (fun e => e.output.getD []) =
          taken.map (· * volume) := by
    intro ts hts
    obtain ⟨traces, htraces⟩ := exists_traces Q process outside s s d d ts
    have hproduced := htraces.produced fun turn hmem => (hts turn hmem).1
    have hblocks := not_mem_produce hfull (traces.flatMap Prod.snd).length s
    rw [hproduced] at hblocks
    obtain ⟨houtputs, hlength⟩ :=
      htraces.outputs_of_full (fun turn hmem => (hts turn hmem).2) hblocks
    exact ⟨_, _, fun calls => htraces.taken_prefix fun turn hmem => (hts turn hmem).1, hlength,
      houtputs⟩
  obtain ⟨taken, calls, htaken, hlength, houtputs⟩ := hrun turns hturns
  obtain ⟨taken', calls', htaken', hlength', houtputs'⟩ := hrun turns' hturns'
  have hsame : taken = taken' :=
    (List.prefix_of_prefix_length_le (htaken (max calls calls') (Nat.le_max_left _ _))
      (htaken' _ (Nat.le_max_right _ _)) (by omega)).eq_of_length (by omega)
  rw [houtputs, houtputs', hsame]

/-- For every producer, queue and run of demands of any sizes, every buffer is filled: it
holds the next samples of the queue and the blocks, scaled, and zeros behind them exactly when
the last call produced nothing. Over the whole run the samples are those queued at the start
and then the blocks, each once and in order. -/
theorem chunking_invisible (Q : VecDeque F δ) (process : σ → σ × List F) (outside : ε → σ → σ)
    (s : σ) (d : δ) (turns : List (Turn F ε)) :
    ∃ traces, Traces Q process outside ((playback Q process outside s d).events turns) traces ∧
      ((playback Q process outside s d).events turns).map Event.output =
        List.zipWith (fun turn trace => some (Turn.scaled trace.1 turn)) turns traces ∧
      traces.flatMap Prod.fst ++ Q.contents ((playback Q process outside s d).run turns).2 =
        Q.contents d ++ (traces.flatMap Prod.snd).flatten ∧
      (∀ volume, (∀ turn ∈ turns, turn.At volume) → [] ∉ traces.flatMap Prod.snd →
        ((playback Q process outside s d).events turns).flatMap (fun e => e.output.getD []) =
          ((Q.contents d ++ (traces.flatMap Prod.snd).flatten).take
            (turns.map Turn.size).sum).map (· * volume)) ∧
      ((∀ turn ∈ turns, ∃ demand, turn = .fill demand) →
        produce process (traces.flatMap Prod.snd).length s =
          (((playback Q process outside s d).run turns).1, traces.flatMap Prod.snd)) := by
  obtain ⟨traces, htraces⟩ := exists_traces Q process outside s s d d turns
  refine ⟨traces, htraces, htraces.outputs_eq, htraces.conserved, ?_, htraces.produced⟩
  intro volume hvolume hblocks
  obtain ⟨houtputs, hlength⟩ := htraces.outputs_of_full hvolume hblocks
  rw [← htraces.conserved, ← hlength, List.take_left]
  exact houtputs

end Run

section Frames

open JitterBufferManager

variable {F δ : Type} [Binary32 F] [FrameMark F] {C : Codec F}

namespace JitterBufferManager

/-- The player thread with the given samples ready for the device. -/
def withQueue (m : JitterBufferManager C) (samples : List F) : JitterBufferManager C :=
  { m with playbackBuf := samples }

/-- The player thread after one frame processed on an empty queue. -/
def refilled (m : JitterBufferManager C) (tick : Tick F) : JitterBufferManager C :=
  (processNextFrame { m.withQueue [] with emissions := [] } tick).1

/-- The block that one callback appends to an empty queue; callback `k` reads `ticks k`. -/
def nextBlock (ticks : ℕ → Tick F) : JitterBufferManager C × ℕ →
    (JitterBufferManager C × ℕ) × List F
  | (m, k) => (((m.refilled (ticks k)).withQueue [], k + 1), (m.refilled (ticks k)).playbackBuf)

end JitterBufferManager

variable (Q : VecDeque F δ) (ticks : ℕ → Tick F) (config : JitterConfig F)
  (networkLink : NetworkLink) (clock : Instant)

/-- Between the two states the player thread took callbacks and samples were consumed. -/
def Plays (m m' : JitterBufferManager C) : Prop :=
  ∃ inputs : List (Input F), (machine C config networkLink clock).runFrom m inputs = m' ∧
    ∀ i ∈ inputs, (∃ k, i = .callback (ticks k)) ∨ ∃ take, i = .consume take

variable {Q ticks config networkLink clock} {m m' m'' : JitterBufferManager C} {k : ℕ} {d : δ}

theorem Plays.refl (m : JitterBufferManager C) : Plays ticks config networkLink clock m m :=
  ⟨[], rfl, by simp⟩

theorem Plays.trans (h : Plays ticks config networkLink clock m m')
    (h' : Plays ticks config networkLink clock m' m'') :
    Plays ticks config networkLink clock m m'' := by
  obtain ⟨inputs, hrun, hinputs⟩ := h
  obtain ⟨inputs', hrun', hinputs'⟩ := h'
  refine ⟨inputs ++ inputs', ?_, ?_⟩
  · rw [Machine.runFrom_append, hrun, hrun']
  · intro i hi
    exact (List.mem_append.mp hi).elim (hinputs i) (hinputs' i)

/-- Refilling an empty queue is one callback of the player thread. -/
theorem plays_refillEmpty (m : JitterBufferManager C) (k : ℕ) (d : δ) :
    Plays ticks config networkLink clock (m.withQueue (Q.contents d))
      ((refillEmpty Q (nextBlock ticks) (m, k) d).1.1.withQueue
        (Q.contents (refillEmpty Q (nextBlock ticks) (m, k) d).2)) := by
  by_cases hempty : Q.len d = 0
  · have hcontents : Q.contents d = [] := by
      rw [← List.length_eq_zero_iff, Q.length_contents, hempty]
    have hstep : (step (m.withQueue []) (.callback (ticks k))).1 = m.refilled (ticks k) := rfl
    have hcall : nextBlock ticks (m, k) =
      (((m.refilled (ticks k)).withQueue [], k + 1), (m.refilled (ticks k)).playbackBuf) := rfl
    rw [refillEmpty_of_empty hempty hcall, Q.extend_contents, hcontents]
    refine ⟨[.callback (ticks k)], ?_, by simp⟩
    rw [Machine.runFrom_cons, Machine.runFrom_nil]
    exact hstep
  · rw [refillEmpty_of_held hempty]
    exact .refl _

/-- Draining the queue is taking samples from the player thread. -/
theorem plays_drain (m : JitterBufferManager C) (d : δ) (take : ℕ) :
    Plays ticks config networkLink clock (m.withQueue (Q.contents d))
      (m.withQueue (Q.contents (Q.drain d take))) := by
  rw [Q.drain_contents]
  exact ⟨[.consume take], rfl, by simp⟩

/-- Filling a buffer is a run of the player thread. -/
theorem plays_fillLoop {volume : F} {fuel need k' : ℕ} {d' : δ} {output : List F}
    (h : fillLoop Q (nextBlock ticks) volume fuel (m, k) d need = some ((m', k'), d', output)) :
    Plays ticks config networkLink clock (m.withQueue (Q.contents d))
      (m'.withQueue (Q.contents d')) := by
  induction fuel generalizing m k d need output with
  | zero =>
    cases need with
    | zero => cases h; exact .refl _
    | succ need => cases h
  | succ fuel ih =>
    cases need with
    | zero => cases h; exact .refl _
    | succ need =>
      refine (plays_refillEmpty m k d).trans ?_
      rw [fillLoop] at h
      generalize refillEmpty Q (nextBlock ticks) (m, k) d = refilled at h ⊢
      obtain ⟨⟨m₁, k₁⟩, d₁⟩ := refilled
      dsimp only at h
      split at h
      · cases h
        exact .refl _
      · obtain ⟨⟨⟨m₂, k₂⟩, d₂, rest⟩, hrest, heq⟩ := Option.map_eq_some_iff.mp h
        cases heq
        exact (plays_drain m₁ d₁ _).trans (ih hrest)

end Frames

end Gemacast.Jitter
