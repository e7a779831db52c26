import Gemacast.Core.Machine
import Gemacast.Jitter.Flow

/-!
# The recovery guard and the concealment window

Armings of the guard, ticks, observed callbacks, discarded windows and restarts come in
any order. The guard is judged by the first arming of its episode, a verdict by the
callbacks observed since the last boundary, both told from the history alone.
-/

namespace Gemacast.Jitter

open Gemacast.Core

/-- A call that the guard or the concealment window hears of. -/
inductive FlowOp
  /-- The tick of a callback. -/
  | tick (now : Instant)
  /-- The guard is armed. -/
  | arm (now : Instant)
  /-- The outcome of a callback is recorded. -/
  | observe (concealed : Bool)
  /-- The window is abandoned. -/
  | discard
  /-- The stream restarts. -/
  | restart
  deriving DecidableEq, Repr

/-- Whether the time-scaler must rest until `started + 500` ms. -/
abbrev GuardedAt (started now : Instant) : Prop := now < started + recoveryGuardWindow

/-- The first arming of the episode that is open, after one more call: an arming opens
one when none is open, and the first tick at its end closes it. -/
def episodeAfter (opened : Option Instant) : FlowOp → Option Instant
  | .arm now => opened.or (some now)
  | .tick now => opened.filter fun started => GuardedAt started now
  | .observe _ | .discard | .restart => opened

/-- The first arming of the episode that is open after the calls. -/
def openedAt (ops : List FlowOp) : Option Instant := ops.foldl episodeAfter none

theorem openedAt_nil : openedAt [] = none := rfl

theorem openedAt_concat (ops : List FlowOp) (op : FlowOp) :
    openedAt (ops ++ [op]) = episodeAfter (openedAt ops) op := by
  rw [openedAt, List.foldl_append]
  rfl

/-- An episode stays open until a tick at its end, and keeps its first arming. -/
theorem openedAt_of_opens {before after : List FlowOp} {started : Instant}
    (hclosed : openedAt before = none) (hticks : ∀ t, .tick t ∈ after → GuardedAt started t) :
    openedAt (before ++ .arm started :: after) = some started := by
  induction after using List.reverseRecOn with
  | nil =>
    rw [openedAt_concat, hclosed]
    rfl
  | append_singleton after op ih =>
    rw [← List.cons_append, ← List.append_assoc, openedAt_concat,
      ih fun t ht => hticks t (List.mem_append_left _ ht)]
    cases op with
    | tick now =>
      have hnow := hticks now (by simp)
      simp [episodeAfter, hnow]
    | arm now | observe concealed | discard | restart => rfl

/-- The open episode begins with an arming that found none open, and no tick since then
has come at its end. -/
theorem openedAt_eq_some_iff {ops : List FlowOp} {started : Instant} :
    openedAt ops = some started ↔ ∃ before after, ops = before ++ .arm started :: after ∧
      openedAt before = none ∧ ∀ t, .tick t ∈ after → GuardedAt started t := by
  constructor
  · intro h
    induction ops using List.reverseRecOn with
    | nil => simp [openedAt_nil] at h
    | append_singleton ops op ih =>
      have hlater : openedAt ops = some started → (∀ t, op = .tick t → GuardedAt started t) →
          ∃ before after, ops ++ [op] = before ++ .arm started :: after ∧
            openedAt before = none ∧ ∀ t, .tick t ∈ after → GuardedAt started t := by
        intro hopen hop
        obtain ⟨before, after, rfl, hclosed, hticks⟩ := ih hopen
        refine ⟨before, after ++ [op], by simp, hclosed, fun t ht => ?_⟩
        obtain ht | ht := List.mem_append.mp ht
        · exact hticks t ht
        · exact hop t (List.mem_singleton.mp ht).symm
      rw [openedAt_concat] at h
      cases op with
      | arm now =>
        cases hopen : openedAt ops with
        | none =>
          rw [hopen] at h
          obtain rfl : now = started := Option.some.inj h
          exact ⟨ops, [], rfl, hopen, by simp⟩
        | some started' =>
          rw [hopen] at h
          obtain rfl : started' = started := Option.some.inj h
          exact hlater hopen (by simp)
      | tick now =>
        obtain ⟨hopen, hnow⟩ := Option.filter_eq_some_iff.mp h
        refine hlater hopen fun t ht => ?_
        rw [← FlowOp.tick.inj ht]
        exact of_decide_eq_true hnow
      | observe concealed | discard | restart => exact hlater h (by simp)
  · rintro ⟨before, after, rfl, hclosed, hticks⟩
    exact openedAt_of_opens hclosed hticks

namespace PlaybackFlow

section Calls

variable {F : Type}

theorem durationSince_lt_iff (started now : Instant) :
    now.durationSince started < recoveryGuardWindow ↔ GuardedAt started now := by
  have hspan : ∀ a b : ℕ, a - b < 500 * 1000000 ↔ a < b + 500 * 1000000 := by omega
  exact hspan now started

/-- Stretching is suppressed exactly within 500 ms of the start that is kept. -/
theorem stretchAllowed_eq_false_iff (f : PlaybackFlow F) (now : Instant) :
    f.stretchAllowed now = false ↔
      ∃ started, f.recoveryStartedAt = some started ∧ GuardedAt started now := by
  unfold stretchAllowed
  cases f.recoveryStartedAt with
  | none => simp
  | some started =>
    rw [Option.all_some, decide_eq_false_iff_not, not_le, durationSince_lt_iff]
    simp

/-- A callback observed before the window is full counts. -/
theorem observeDelivery_of_short (f : PlaybackFlow F) (concealed : Bool)
    (h : f.windowCallbacks + 1 < concealWindowCallbacks) :
    f.observeDelivery concealed =
      ({ f with
        windowCallbacks := f.windowCallbacks + 1
        concealCallbacks := if concealed then f.concealCallbacks + 1 else f.concealCallbacks },
        none) := by
  unfold observeDelivery
  exact if_pos h

/-- The callback that fills the window yields a verdict, which holds the playhead when
half of the window was concealed, and the window starts over. -/
theorem observeDelivery_of_full (f : PlaybackFlow F) (concealed : Bool)
    (h : f.windowCallbacks + 1 = concealWindowCallbacks) :
    ∃ verdict, f.observeDelivery concealed =
        ({ f with windowCallbacks := 0, concealCallbacks := 0 }, some verdict) ∧
      (verdict.shouldRebuffer = true ↔ concealWindowCallbacks ≤
        2 * if concealed then f.concealCallbacks + 1 else f.concealCallbacks) := by
  unfold observeDelivery
  dsimp only
  rw [if_neg (by omega)]
  refine ⟨_, rfl, ?_⟩
  rw [h, decide_eq_true_iff]
  generalize (if concealed = true then f.concealCallbacks + 1 else f.concealCallbacks) = count
  unfold concealRebufferPct concealWindowCallbacks millisPerFrame opusFrameSize opusSampleRate
  omega

theorem count_cons_true (concealed : Bool) (l : List Bool) :
    (concealed :: l).count true = if concealed then l.count true + 1 else l.count true := by
  cases concealed <;> simp

/-- One executed call. -/
abbrev FlowEvent (F : Type) := Event (PlaybackFlow F) FlowOp (Option ConcealVerdict)

/-- A boundary of the window: a verdict, a discard or a restart. -/
def Bounds (e : FlowEvent F) : Prop :=
  e.output.isSome = true ∨ e.input = .discard ∨ e.input = .restart

instance (e : FlowEvent F) : Decidable (Bounds e) := inferInstanceAs (Decidable (_ ∨ _ ∨ _))

/-- What a call records: whether its callback was concealed. -/
def recorded (e : FlowEvent F) : Option Bool :=
  match e.input with
  | .observe concealed => some concealed
  | _ => none

/-- The callbacks observed since the last boundary, the newest first. -/
def observedSince (pre : List (FlowEvent F)) : List Bool :=
  (pre.reverse.takeWhile fun e => ¬Bounds e).filterMap recorded

theorem observedSince_concat (pre : List (FlowEvent F)) (e : FlowEvent F) :
    observedSince (pre ++ [e]) =
      if Bounds e then [] else (recorded e).toList ++ observedSince pre := by
  unfold observedSince
  rw [List.reverse_append, List.reverse_singleton, List.singleton_append, List.takeWhile_cons]
  by_cases hbound : Bounds e
  · simp [hbound]
  · rw [if_pos (by simp [hbound]), if_neg hbound, List.filterMap_cons]
    cases recorded e <;> rfl

/-- The counters of the window are those of the callbacks observed since the boundary. -/
structure Measures (observed : List Bool) (f : PlaybackFlow F) : Prop where
  callbacks : f.windowCallbacks = observed.length
  concealed : f.concealCallbacks = observed.count true
  short : f.windowCallbacks < concealWindowCallbacks

/-- The event of a call holds the playhead. -/
def Holds (e : FlowEvent F) : Prop :=
  ∃ verdict, e.output = some verdict ∧ verdict.shouldRebuffer = true

end Calls

variable {F : Type} [Binary32 F]

/-- One call. -/
def step (f : PlaybackFlow F) : FlowOp → PlaybackFlow F × Option ConcealVerdict
  | .tick now => (f.tickRecovery now, none)
  | .arm now => (f.armRecoveryWindow now, none)
  | .observe concealed => f.observeDelivery concealed
  | .discard => (f.discardConcealWindow, none)
  | .restart => (f.resetOnStreamRestart, none)

/-- The lifecycle under the calls, from a new one on; the answers are the verdicts. -/
def machine (F : Type) [Binary32 F] : Machine (PlaybackFlow F) FlowOp (Option ConcealVerdict) where
  init := new
  step := step

/-- A call moves the guard as it moves the episode. -/
theorem step_recoveryStartedAt (f : PlaybackFlow F) (op : FlowOp) :
    (f.step op).1.recoveryStartedAt = episodeAfter f.recoveryStartedAt op := by
  cases op with
  | tick now =>
    refine congrArg f.recoveryStartedAt.filter (funext fun started => ?_)
    exact decide_eq_decide.mpr (durationSince_lt_iff started now)
  | arm now | discard | restart => rfl
  | observe concealed =>
    unfold step observeDelivery
    dsimp only
    split <;> rfl

/-- The guard of a run is the episode of its calls. -/
theorem run_recoveryStartedAt (ops : List FlowOp) :
    ((machine F).run ops).recoveryStartedAt = openedAt ops := by
  induction ops using List.reverseRecOn with
  | nil => rfl
  | append_singleton ops op ih =>
    rw [Machine.run_concat, openedAt_concat, ← ih]
    exact step_recoveryStartedAt _ op

/-- An arming behind the tick of its callback always suppresses. -/
theorem stretchAllowed_of_ticked (f : PlaybackFlow F) (now : Instant) :
    ((f.tickRecovery now).armRecoveryWindow now).stretchAllowed now = false := by
  rw [stretchAllowed_eq_false_iff]
  have htick := f.step_recoveryStartedAt (.tick now)
  have harm := (f.tickRecovery now).step_recoveryStartedAt (.arm now)
  change (f.tickRecovery now).recoveryStartedAt = _ at htick
  change ((f.tickRecovery now).armRecoveryWindow now).recoveryStartedAt = _ at harm
  rw [harm, htick]
  cases hopen : episodeAfter f.recoveryStartedAt (.tick now) with
  | none => exact ⟨now, rfl, Nat.lt_add_of_pos_right (by decide)⟩
  | some started =>
    have hkept := (Option.filter_eq_some_iff.mp hopen).2
    exact ⟨started, rfl, of_decide_eq_true hkept⟩

/-- Every call keeps the measure. -/
theorem measures_step {pre : List (FlowEvent F)} {f : PlaybackFlow F}
    (h : Measures (observedSince pre) f) (op : FlowOp) :
    Measures (observedSince (pre ++ [(machine F).eventAt f op])) (f.step op).1 := by
  have hempty : ∀ f : PlaybackFlow F, f.windowCallbacks = 0 → f.concealCallbacks = 0 →
      Measures [] f := fun f hw hc => ⟨hw, hc, hw ▸ by decide⟩
  rw [observedSince_concat]
  cases op with
  | tick now | arm now =>
    rw [if_neg (by simp [Bounds, machine, step])]
    exact ⟨h.callbacks, h.concealed, h.short⟩
  | discard =>
    rw [if_pos (show Bounds _ from Or.inr (Or.inl rfl))]
    exact hempty _ rfl rfl
  | restart =>
    rw [if_pos (show Bounds _ from Or.inr (Or.inr rfl))]
    exact hempty _ rfl rfl
  | observe concealed =>
    have hshort := h.short
    obtain hlt | hfull : f.windowCallbacks + 1 < concealWindowCallbacks ∨
        f.windowCallbacks + 1 = concealWindowCallbacks := by omega
    · have hobserve := f.observeDelivery_of_short concealed hlt
      rw [if_neg (by simp [Bounds, machine, step, hobserve])]
      change Measures (concealed :: observedSince pre) (f.observeDelivery concealed).1
      rw [hobserve]
      refine ⟨congrArg (· + 1) h.callbacks, ?_, hlt⟩
      rw [count_cons_true, ← h.concealed]
    · obtain ⟨verdict, hobserve, -⟩ := f.observeDelivery_of_full concealed hfull
      have hbound : Bounds ((machine F).eventAt f (.observe concealed)) := by
        simp [Bounds, machine, step, hobserve]
      rw [if_pos hbound]
      change Measures [] (f.observeDelivery concealed).1
      rw [hobserve]
      exact hempty _ rfl rfl

/-- A call holds the playhead exactly when it records the callback that fills the window,
half of which was concealed. -/
theorem holds_iff {pre : List (FlowEvent F)} {f : PlaybackFlow F}
    (h : Measures (observedSince pre) f) (op : FlowOp) :
    Holds ((machine F).eventAt f op) ↔ ∃ concealed, op = .observe concealed ∧
      (concealed :: observedSince pre).length = concealWindowCallbacks ∧
      concealWindowCallbacks ≤ 2 * (concealed :: observedSince pre).count true := by
  cases op with
  | tick now | arm now | discard | restart => simp [Holds, machine, step]
  | observe concealed =>
    have hshort := h.short
    have hlength : (concealed :: observedSince pre).length = f.windowCallbacks + 1 := by
      rw [List.length_cons, h.callbacks]
    obtain hlt | hfull : f.windowCallbacks + 1 < concealWindowCallbacks ∨
        f.windowCallbacks + 1 = concealWindowCallbacks := by omega
    · have hobserve := f.observeDelivery_of_short concealed hlt
      have hnone : ¬Holds ((machine F).eventAt f (.observe concealed)) := by
        simp [Holds, machine, step, hobserve]
      refine iff_of_false hnone ?_
      rintro ⟨_, hop, hfull, -⟩
      obtain rfl := FlowOp.observe.inj hop
      omega
    · obtain ⟨verdict, hobserve, hholds⟩ := f.observeDelivery_of_full concealed hfull
      have hverdict : Holds ((machine F).eventAt f (.observe concealed)) ↔
          verdict.shouldRebuffer = true := by
        simp [Holds, machine, step, hobserve]
      rw [hverdict, hholds, h.concealed, ← count_cons_true]
      constructor
      · intro hhalf
        exact ⟨concealed, rfl, hlength.trans hfull, hhalf⟩
      · rintro ⟨_, hop, -, hhalf⟩
        obtain rfl := FlowOp.observe.inj hop
        exact hhalf

/-- In every order of calls: stretching is suppressed at an instant exactly when the
first arming of an open episode lies less than 500 ms back, whatever is armed after it;
and the playhead is held exactly by the callback that completes 50 observed since the
last boundary, of which at least half were concealed. -/
theorem guard_of_run (F : Type) [Binary32 F] (ops : List FlowOp) :
    (∀ now, ((machine F).run ops).stretchAllowed now = false ↔
      ∃ before started after, ops = before ++ .arm started :: after ∧ openedAt before = none ∧
        (∀ t, .tick t ∈ after → GuardedAt started t) ∧ GuardedAt started now) ∧
    ∀ pre e post, (machine F).events ops = pre ++ e :: post →
      (Holds e ↔ ∃ concealed, e.input = .observe concealed ∧
        (concealed :: observedSince pre).length = 50 ∧
        50 ≤ 2 * (concealed :: observedSince pre).count true) := by
  constructor
  · intro now
    rw [stretchAllowed_eq_false_iff, run_recoveryStartedAt]
    constructor
    · rintro ⟨started, hopen, hnow⟩
      obtain ⟨before, after, hops, hclosed, hticks⟩ := openedAt_eq_some_iff.mp hopen
      exact ⟨before, started, after, hops, hclosed, hticks, hnow⟩
    · rintro ⟨before, started, after, hops, hclosed, hticks, hnow⟩
      exact ⟨started, openedAt_eq_some_iff.mpr ⟨before, after, hops, hclosed, hticks⟩, hnow⟩
  · intro pre e post hsplit
    have hshort : 0 < concealWindowCallbacks := by decide
    have hmeasures : Measures (observedSince pre) e.before :=
      (machine F).history_before (I := fun pre f => Measures (observedSince pre) f)
        (p := fun _ _ => True) ⟨rfl, rfl, hshort⟩
        (fun _ _ op h _ => measures_step h op) (fun _ _ _ _ => trivial) hsplit
    have he := (machine F).eq_eventAt_of_mem (hsplit ▸ List.mem_append_right pre List.mem_cons_self)
    rw [he]
    exact holds_iff hmeasures e.input


end PlaybackFlow

end Gemacast.Jitter
