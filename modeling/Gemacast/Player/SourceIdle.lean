import Gemacast.Core.Machine
import Gemacast.Jitter.Types

/-!
# Idle sources

A source that has been silent for long enough is suspended, and the first sound wakes it.
The edges between the two are told from the observations alone: how long the silence at
their end has lasted, and whether it has been reported.
-/

namespace Gemacast.Player

open Gemacast.Core Gemacast.Jitter

/-- One packet as the detector sees it. -/
structure Observation where
  /-- The packet is a silence marker. -/
  isSilence : Bool
  /-- When it is observed. -/
  now : Instant
  deriving DecidableEq, Repr

/-- What is known of the silence of a source. -/
structure SourceIdleDetector where
  /-- How long a silence lasts before the source is suspended. -/
  idleAfter : Duration
  /-- The first observation of the silence that lasts. -/
  silenceStartedAt : Option Instant
  /-- The source is suspended. -/
  suspended : Bool
  deriving DecidableEq, Repr

namespace SourceIdleDetector

/-- Nothing has been observed. -/
def new (idleAfter : Duration) : SourceIdleDetector := ⟨idleAfter, none, false⟩

/-- Take in one observation: `true` reports that the source falls idle, `false` that it wakes. -/
def observe (d : SourceIdleDetector) (isSilence : Bool) (now : Instant) :
    SourceIdleDetector × Option Bool :=
  if ¬isSilence then
    let d := { d with silenceStartedAt := none }
    if d.suspended then ({ d with suspended := false }, some false) else (d, none)
  else
    let started := d.silenceStartedAt.getD now
    let d := { d with silenceStartedAt := some started }
    if ¬d.suspended ∧ d.idleAfter ≤ now.durationSince started then
      ({ d with suspended := true }, some true)
    else (d, none)

/-- The detector as a machine. -/
def machine (idleAfter : Duration) : Machine SourceIdleDetector Observation (Option Bool) :=
  ⟨new idleAfter, fun d o => d.observe o.isSilence o.now⟩

/-- The observations end with a silence of at least the given length. -/
def SilentFor (idleAfter : Duration) (seen : List Observation) : Prop :=
  ∃ before first rest last, seen = before ++ first :: rest ∧
    (∀ o ∈ first :: rest, o.isSilence = true) ∧ seen.getLast? = some last ∧
    first.now + idleAfter ≤ last.now

/-- The silence that the detector times is the one the observations end with. -/
structure Times (d : SourceIdleDetector) (seen : List Observation) : Prop where
  /-- A silence that is timed is there from its start on. -/
  timed : ∀ start, d.silenceStartedAt = some start → ∃ before first rest,
    seen = before ++ first :: rest ∧ (∀ o ∈ first :: rest, o.isSilence = true) ∧ first.now = start
  /-- No silence is there that is not timed, and none that began earlier. -/
  earliest : ∀ before first rest, seen = before ++ first :: rest →
    (∀ o ∈ first :: rest, o.isSilence = true) →
      ∃ start, d.silenceStartedAt = some start ∧ start ≤ first.now

variable {d : SourceIdleDetector} {seen : List Observation} {o : Observation}
  {idleAfter : Duration}

theorem Times.new (idleAfter : Duration) : (new idleAfter).Times [] where
  timed _ h := nomatch h
  earliest _ _ _ h _ := absurd h.symm (List.append_ne_nil_of_right_ne_nil _ (List.cons_ne_nil _ _))

@[simp] theorem observe_idleAfter (d : SourceIdleDetector) (isSilence : Bool) (now : Instant) :
    (d.observe isSilence now).1.idleAfter = d.idleAfter := by
  unfold observe
  split <;> (dsimp only; split <;> rfl)

/-- A sound ends the silence; a silent packet starts one unless one lasts. -/
theorem observe_silenceStartedAt (d : SourceIdleDetector) (isSilence : Bool) (now : Instant) :
    (d.observe isSilence now).1.silenceStartedAt =
      if isSilence then some (d.silenceStartedAt.getD now) else none := by
  unfold observe
  cases isSilence with
  | false =>
    rw [if_pos (by decide)]
    dsimp only
    split <;> rfl
  | true =>
    rw [if_neg (by decide)]
    dsimp only
    split <;> rfl

/-- A suffix of one more entry is that entry, or it begins before it. -/
theorem suffix_concat {α : Type*} {l before rest : List α} {a first : α}
    (h : l ++ [a] = before ++ first :: rest) :
    (before = l ∧ first = a ∧ rest = []) ∨
      ∃ rest', rest = rest' ++ [a] ∧ l = before ++ first :: rest' := by
  cases rest using List.reverseRecOn with
  | nil =>
    obtain ⟨hl, ha⟩ := List.append_inj' h rfl
    exact .inl ⟨hl.symm, (List.cons.inj ha).1.symm, rfl⟩
  | append_singleton rest' last =>
    rw [← List.cons_append, ← List.append_assoc] at h
    obtain ⟨hl, ha⟩ := List.append_inj' h rfl
    exact .inr ⟨rest', by rw [(List.cons.inj ha).1], hl⟩

/-- The detector keeps the time of the silence as long as the clock does not go back. -/
theorem Times.observe (h : d.Times seen) (hmono : ∀ x ∈ seen, x.now ≤ o.now) :
    (d.observe o.isSilence o.now).1.Times (seen ++ [o]) := by
  constructor
  · intro start hstart
    rw [observe_silenceStartedAt] at hstart
    cases hsilent : o.isSilence with
    | false => simp [hsilent] at hstart
    | true =>
      rw [hsilent, if_pos rfl, Option.some.injEq] at hstart
      cases hold : d.silenceStartedAt with
      | none => exact ⟨seen, o, [], rfl, by simpa using hsilent, by simpa [hold] using hstart⟩
      | some started =>
        obtain ⟨before, first, rest, hseen, hall, hfirst⟩ := h.timed started hold
        refine ⟨before, first, rest ++ [o], by simp [hseen], ?_,
          by simpa [hold, hfirst] using hstart⟩
        intro x hx
        rw [← List.cons_append] at hx
        obtain hx | hx := List.mem_append.mp hx
        · exact hall x hx
        · rw [List.mem_singleton.mp hx, hsilent]
  · intro before first rest hsplit hall
    have hsilent : o.isSilence = true := by
      obtain ⟨-, rfl, rfl⟩ | ⟨rest', rfl, -⟩ := suffix_concat hsplit
      · exact hall _ List.mem_cons_self
      · exact hall o (by simp)
    rw [observe_silenceStartedAt, hsilent, if_pos rfl]
    refine ⟨_, rfl, ?_⟩
    obtain ⟨rfl, rfl, rfl⟩ | ⟨rest', rfl, hseen⟩ := suffix_concat hsplit
    · cases hold : d.silenceStartedAt with
      | none => exact Nat.le_refl _
      | some started =>
        obtain ⟨before, start, rest, hseen, -, hstart⟩ := h.timed started hold
        have hle := hmono start (by simp [hseen])
        rwa [hstart] at hle
    · obtain ⟨started, hold, hle⟩ := h.earliest before first rest' hseen fun x hx =>
        hall x (by rw [← List.cons_append]; exact List.mem_append_left _ hx)
      rwa [hold]

/-- How long the silence at the end has lasted is read off the detector. -/
theorem Times.silentFor_iff (h : d.Times (seen ++ [o])) : SilentFor idleAfter (seen ++ [o]) ↔
    ∃ start, d.silenceStartedAt = some start ∧ start + idleAfter ≤ o.now := by
  constructor
  · rintro ⟨before, first, rest, last, hsplit, hall, hlast, hlong⟩
    obtain ⟨start, hstart, hle⟩ := h.earliest before first rest hsplit hall
    rw [List.getLast?_concat, Option.some.injEq] at hlast
    exact ⟨start, hstart, hlast ▸ Nat.le_trans (Nat.add_le_add_right hle _) hlong⟩
  · rintro ⟨start, hstart, hlong⟩
    obtain ⟨before, first, rest, hsplit, hall, hfirst⟩ := h.timed start hstart
    exact ⟨before, first, rest, o, hsplit, hall, List.getLast?_concat, hfirst ▸ hlong⟩

/-- An edge is the change of the flag, and nothing else changes it. -/
theorem observe_edge (d : SourceIdleDetector) (isSilence : Bool) (now : Instant) :
    ((d.observe isSilence now).2 = none ∧ (d.observe isSilence now).1.suspended = d.suspended) ∨
      ((d.observe isSilence now).2 = some !d.suspended ∧
        (d.observe isSilence now).1.suspended = !d.suspended ∧ isSilence = !d.suspended) := by
  unfold observe
  cases isSilence with
  | false =>
    rw [if_pos (by decide)]
    dsimp only
    split
    · next hsuspended => exact .inr (by simp [hsuspended])
    · exact .inl ⟨rfl, rfl⟩
  | true =>
    rw [if_neg (by decide)]
    dsimp only
    split
    · next hdue => exact .inr (by simpa using hdue.1)
    · exact .inl ⟨rfl, rfl⟩

/-- A sound wakes a suspended source. -/
theorem observe_sound (d : SourceIdleDetector) (now : Instant) :
    (d.observe false now).2 = (if d.suspended then some false else none) ∧
      (d.observe false now).1.suspended = false := by
  unfold observe
  rw [if_pos (by decide)]
  dsimp only
  split
  · exact ⟨rfl, rfl⟩
  · next hsuspended => exact ⟨rfl, by simpa using hsuspended⟩

/-- Silence is reported once it has lasted for long enough and has not been reported. -/
theorem Times.observe_silence (h : d.Times seen) (hsilent : o.isSilence = true)
    (hmono : ∀ x ∈ seen, x.now ≤ o.now) : (d.observe o.isSilence o.now).2 = some true ↔
      d.suspended = false ∧ SilentFor d.idleAfter (seen ++ [o]) := by
  have hstarted : d.silenceStartedAt.getD o.now ≤ o.now := by
    cases hold : d.silenceStartedAt with
    | none => exact Nat.le_refl _
    | some started =>
      obtain ⟨before, first, rest, hseen, -, hfirst⟩ := h.timed started hold
      exact hfirst ▸ hmono first (by simp [hseen])
  have hlasts : d.idleAfter ≤ o.now.durationSince (d.silenceStartedAt.getD o.now) ↔
      SilentFor d.idleAfter (seen ++ [o]) := by
    rw [(h.observe hmono).silentFor_iff, observe_silenceStartedAt, hsilent, if_pos rfl]
    simp only [Option.some.injEq, exists_eq_left']
    exact (Nat.le_sub_iff_add_le hstarted).trans (by rw [Nat.add_comm])
  rw [← hlasts, hsilent, SourceIdleDetector.observe, if_neg (by decide)]
  dsimp only
  split
  · next hdue => exact iff_of_true rfl ⟨by simpa using hdue.1, hdue.2⟩
  · next hdue => exact iff_of_false nofun fun h => hdue ⟨by simpa using h.1, h.2⟩

section Since

variable {α : Type*} {hold : α → Prop} {P : List α → α → Prop} {l : List α} {a : α}

/-- At some entry `P` was the case, of the entries before it and itself, and every entry since
then holds. -/
def Since (hold : α → Prop) (P : List α → α → Prop) (l : List α) : Prop :=
  ∃ before a rest, l = before ++ a :: rest ∧ P before a ∧ ∀ b ∈ rest, hold b

theorem not_since_nil : ¬Since hold P [] := fun ⟨_, _, _, h, _⟩ =>
  absurd h.symm (List.append_ne_nil_of_right_ne_nil _ (List.cons_ne_nil _ _))

/-- One more entry begins anew or keeps what it was. -/
theorem since_concat : Since hold P (l ++ [a]) ↔ P l a ∨ hold a ∧ Since hold P l := by
  constructor
  · rintro ⟨before, first, rest, hsplit, hfirst, hrest⟩
    obtain ⟨rfl, rfl, rfl⟩ | ⟨rest', rfl, hl⟩ := suffix_concat hsplit
    · exact .inl hfirst
    · exact .inr ⟨hrest a (by simp), before, first, rest', hl, hfirst,
        fun b hb => hrest b (List.mem_append_left _ hb)⟩
  · rintro (hnew | ⟨ha, before, first, rest, rfl, hfirst, hrest⟩)
    · exact ⟨l, a, [], rfl, hnew, fun _ hb => absurd hb List.not_mem_nil⟩
    · refine ⟨before, first, rest ++ [a], by simp, hfirst, fun b hb => ?_⟩
      obtain hb | hb := List.mem_append.mp hb
      · exact hrest b hb
      · exact List.mem_singleton.mp hb ▸ ha

end Since

section Trace

/-- One observation of a trace, and what it reports. -/
abbrev Report := Event SourceIdleDetector Observation (Option Bool)

/-- An idle edge with nothing but silence after it. -/
def IdleReported (reports : List Report) : Prop :=
  Since (fun r => r.input.isSilence = true) (fun _ r => r.output = some true) reports

/-- The silence at the end had lasted for long enough at an earlier observation of it. -/
def LongBefore (idleAfter : Duration) (seen : List Observation) : Prop :=
  Since (fun o => o.isSilence = true)
    (fun before o => o.isSilence = true ∧ SilentFor idleAfter (before ++ [o])) seen

/-- What the detector remembers of a trace. -/
structure Remembers (idleAfter : Duration) (reports : List Report) (d : SourceIdleDetector) :
    Prop where
  /-- The bound is the one of the source. -/
  bound : d.idleAfter = idleAfter
  /-- The silence at the end is timed. -/
  times : d.Times (reports.map Event.input)
  /-- The flag tells of an idle edge that no sound has followed. -/
  reported : d.suspended = true ↔ IdleReported reports
  /-- The flag tells whether the silence at the end has been long enough. -/
  long : d.suspended = true ↔ LongBefore idleAfter (reports.map Event.input)

variable {reports : List Report}

theorem Remembers.new (idleAfter : Duration) : Remembers idleAfter [] (new idleAfter) where
  bound := rfl
  times := Times.new idleAfter
  reported := iff_of_false Bool.false_ne_true not_since_nil
  long := iff_of_false Bool.false_ne_true not_since_nil

/-- A report is what the trace before it and the observation call for. -/
theorem Remembers.output (h : Remembers idleAfter reports d)
    (hmono : ∀ r ∈ reports, r.input.now ≤ o.now) :
    ((d.observe o.isSilence o.now).2 = some true ↔
      SilentFor idleAfter (reports.map Event.input ++ [o]) ∧ o.isSilence = true ∧
        ¬LongBefore idleAfter (reports.map Event.input)) ∧
      ((d.observe o.isSilence o.now).2 = some false ↔
        o.isSilence = false ∧ IdleReported reports) := by
  have hseen : ∀ x ∈ reports.map Event.input, x.now ≤ o.now := by
    intro x hx
    obtain ⟨r, hr, rfl⟩ := List.mem_map.mp hx
    exact hmono r hr
  rw [← h.long, ← h.reported]
  cases hsilent : o.isSilence with
  | false =>
    rw [(d.observe_sound o.now).1]
    cases d.suspended <;> simp
  | true =>
    have hidle := h.times.observe_silence hsilent hseen
    rw [hsilent, h.bound] at hidle
    rw [hidle]
    refine ⟨by simp [and_comm], iff_of_false (fun hout => ?_) (by simp)⟩
    obtain ⟨hnone, -⟩ | ⟨hsome, -, hflag⟩ := d.observe_edge true o.now
    · exact absurd (hnone.symm.trans hout) nofun
    · rw [hout, ← hflag] at hsome
      exact absurd hsome (by decide)

/-- The detector goes on remembering. -/
theorem Remembers.observe (h : Remembers idleAfter reports d)
    (hmono : ∀ r ∈ reports, r.input.now ≤ o.now) :
    Remembers idleAfter (reports ++ [(machine idleAfter).eventAt d o])
      (d.observe o.isSilence o.now).1 := by
  have hseen : ∀ x ∈ reports.map Event.input, x.now ≤ o.now := by
    intro x hx
    obtain ⟨r, hr, rfl⟩ := List.mem_map.mp hx
    exact hmono r hr
  have hout := h.output hmono
  constructor
  · rw [observe_idleAfter, h.bound]
  · rw [List.map_append]
    exact h.times.observe hseen
  · rw [IdleReported, since_concat]
    change _ ↔ (d.observe o.isSilence o.now).2 = some true ∨
      o.isSilence = true ∧ IdleReported reports
    rw [← h.reported]
    cases hsilent : o.isSilence with
    | false =>
      rw [(d.observe_sound o.now).1, (d.observe_sound o.now).2]
      cases d.suspended <;> simp
    | true =>
      obtain ⟨hnone, hkept⟩ | ⟨hsome, hflag, hold⟩ := d.observe_edge true o.now
      · rw [hnone, hkept]
        simp
      · rw [hsome, hflag, ← hold]
        simp
  · rw [List.map_append, LongBefore]
    change _ ↔ Since _ _ (_ ++ [o])
    rw [since_concat]
    change _ ↔ (o.isSilence = true ∧ SilentFor idleAfter (reports.map Event.input ++ [o])) ∨
      o.isSilence = true ∧ LongBefore idleAfter (reports.map Event.input)
    rw [← h.long]
    cases hsilent : o.isSilence with
    | false =>
      rw [(d.observe_sound o.now).2]
      simp
    | true =>
      have hidle := h.times.observe_silence hsilent hseen
      rw [hsilent, h.bound] at hidle
      obtain ⟨hnone, hkept⟩ | ⟨hsome, hflag, hold⟩ := d.observe_edge true o.now
      · rw [hkept]
        rw [hnone] at hidle
        have hnot := (iff_false_left nofun).mp hidle
        refine ⟨fun hs => .inr ⟨rfl, hs⟩, fun hlong => ?_⟩
        obtain ⟨-, hfor⟩ | ⟨-, hs⟩ := hlong
        · exact eq_true_of_ne_false fun hs => hnot ⟨hs, hfor⟩
        · exact hs
      · rw [hflag, ← hold]
        exact iff_of_true rfl (.inl ⟨rfl, (hidle.mp (by rw [hsome, ← hold])).2⟩)

/-- The edges of a trace take turns, beginning with the one that the flag allows. -/
theorem alternate_from (d : SourceIdleDetector) (observations : List Observation) {k : ℕ}
    {edge : Bool} (h : (((machine idleAfter).eventsFrom d observations).filterMap
      Event.output)[k]? = some edge) : edge = (decide (k % 2 = 0) ^^ d.suspended) := by
  induction observations generalizing d k with
  | nil => simp at h
  | cons o observations ih =>
    rw [Machine.eventsFrom_cons, List.filterMap_cons] at h
    obtain ⟨hnone, hkept⟩ | ⟨hsome, hflag, -⟩ := d.observe_edge o.isSilence o.now
    · rw [Machine.eventAt_output, machine, hnone] at h
      exact hkept ▸ ih _ h
    · rw [Machine.eventAt_output, machine, hsome] at h
      cases k with
      | zero =>
        rw [List.getElem?_cons_zero, Option.some.injEq] at h
        simp [← h]
      | succ k =>
        rw [List.getElem?_cons_succ] at h
        have hrest : edge = (decide (k % 2 = 0) ^^ !d.suspended) := hflag ▸ ih _ h
        rw [hrest, Bool.xor_not, ← Bool.not_xor, ← decide_not]
        congr 2
        simp only [eq_iff_iff]
        omega

/-- Along a trace whose clock does not go back the edges take turns, beginning with an idle one.
The source falls idle at the first observation of a silence that has lasted for `idle_after`,
and it wakes at the first sound after an idle edge. -/
theorem edges_of_trace (idleAfter : Duration) (observations : List Observation)
    (hmono : (observations.map Observation.now).Pairwise (· ≤ ·)) :
    (∀ k edge, (((machine idleAfter).events observations).filterMap Event.output)[k]? = some edge →
      edge = decide (k % 2 = 0)) ∧
    ∀ pre e post, (machine idleAfter).events observations = pre ++ e :: post →
      (e.output = some true ↔ SilentFor idleAfter (pre.map Event.input ++ [e.input]) ∧
        e.input.isSilence = true ∧ ¬LongBefore idleAfter (pre.map Event.input)) ∧
      (e.output = some false ↔ e.input.isSilence = false ∧ IdleReported pre) := by
  refine ⟨fun k edge h => ?_, fun pre e post h => ?_⟩
  · rw [alternate_from _ _ h]
    exact Bool.xor_false _
  · have horder : ∀ pre e post, (machine idleAfter).events observations = pre ++ e :: post →
        ∀ r ∈ pre, r.input.now ≤ e.input.now := by
      intro pre e post h r hr
      obtain ⟨as, bs, hinputs, hpre, -⟩ := (machine idleAfter).eventsFrom_split h
      rw [hinputs, List.map_append, List.pairwise_append] at hmono
      rw [hpre] at hr
      exact hmono.2.2 _ (List.mem_map_of_mem ((machine idleAfter).input_mem hr)) _ (by simp)
    have hremembers := (machine idleAfter).history_before
      (I := fun reports d => Remembers idleAfter reports d)
      (p := fun pre e => ∀ r ∈ pre, r.input.now ≤ e.input.now) (Remembers.new idleAfter)
      (fun reports d o hkept hle => hkept.observe hle) horder h
    have he : e ∈ (machine idleAfter).events observations :=
      h ▸ List.mem_append_right _ List.mem_cons_self
    have hanswer : e.output = (e.before.observe e.input.isSilence e.input.now).2 :=
      congrArg Event.output ((machine idleAfter).eq_eventAt_of_mem he)
    rw [hanswer]
    exact hremembers.output (horder pre e post h)

/-- A silence too short, and one of six seconds after the sound that ends it. -/
def broken : List Observation :=
  [⟨true, 0⟩, ⟨true, 4000000000⟩, ⟨false, 4500000000⟩, ⟨true, 5000000000⟩, ⟨true, 9000000000⟩,
    ⟨true, 11000000000⟩, ⟨true, 12000000000⟩, ⟨false, 13000000000⟩]

theorem edges_of_trace_broken : (broken.map Observation.now).Pairwise (· ≤ ·) ∧
    ((machine (Duration.fromSecs 5)).events broken).filterMap Event.output = [true, false] ∧
    ∀ k edge, (((machine (Duration.fromSecs 5)).events broken).filterMap Event.output)[k]? =
      some edge → edge = decide (k % 2 = 0) := by
  have hmono : (broken.map Observation.now).Pairwise (· ≤ ·) := by decide
  exact ⟨hmono, by decide, (edges_of_trace (Duration.fromSecs 5) broken hmono).1⟩

end Trace

end SourceIdleDetector

end Gemacast.Player
