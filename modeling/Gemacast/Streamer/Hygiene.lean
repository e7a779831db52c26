import Gemacast.Core.Machine
import Gemacast.Streamer.PoolSpec

/-!
# No capture runs for nobody

Every instance the pool keeps should have an encoder, and a request that fails should
change nothing. Two steps break this: a subscription that starts a capture and then fails
to start its encoder, and a failed encoder that was the last of its instance. A run keeps
both properties exactly when it has neither step.
-/

namespace Gemacast.Streamer

open Gemacast.Core

/-- An operation of the pool, with what the platform answers to it. -/
inductive PoolOp
  | subscribe (source : AudioSource) (target : TargetId) (bitrate : Option ℤ)
      (platform : Platform)
  | changeSource (oldSource newSource : AudioSource) (target : TargetId) (bitrate : Option ℤ)
      (platform : Platform)
  | changeBitrate (source : AudioSource) (target : TargetId) (bitrate : Option ℤ)
      (platform : Platform)
  | unsubscribe (source : AudioSource) (target : TargetId)
  | evict (source : AudioSource) (generation : UInt64)
  | removeFailed (failure : StreamTaskFailure)

/-- What an operation returns. -/
inductive PoolAnswer
  | channel (result : Except PoolError (Option Channel))
  | done
  | dropped (current : Bool)

namespace CapturePool

open AudioCaptureInstance

variable {p : CapturePool} {source s : AudioSource} {target : TargetId} {bitrate : Option ℤ}
  {platform : Platform} {failure : StreamTaskFailure}
  {answer : CapturePool × Except PoolError (Option Channel)} {b : Bool}

/-- One operation. -/
def step (p : CapturePool) : PoolOp → CapturePool × PoolAnswer
  | .subscribe source target bitrate platform =>
    let answer := p.subscribe source target bitrate platform
    (answer.1, .channel answer.2)
  | .changeSource oldSource newSource target bitrate platform =>
    let answer := p.changeSource oldSource newSource target bitrate platform
    (answer.1, .channel answer.2)
  | .changeBitrate source target bitrate platform =>
    let answer := p.changeBitrate source target bitrate platform
    (answer.1, .channel answer.2)
  | .unsubscribe source target => (p.unsubscribe source target, .done)
  | .evict source generation =>
    let answer := p.evictFailedSource source generation
    (answer.1, .dropped answer.2)
  | .removeFailed failure =>
    let answer := p.removeFailedTarget failure
    (answer.1, .dropped answer.2)

/-- The pool under any operations. -/
def machine (supportsProcessCapture : Bool) : Machine CapturePool PoolOp PoolAnswer :=
  ⟨.new supportsProcessCapture, step⟩

/-- Every instance has an encoder. -/
def Hygienic (p : CapturePool) : Prop :=
  ∀ source i, p.instances.lookup source = some i → ∃ t, i.encoderAt t ≠ none

/-- The instances, and the encoders in them, are the same. -/
def SameInstances (p p' : CapturePool) : Prop :=
  ∀ source, p'.instances.lookup source = p.instances.lookup source

/-- A request that returned an error changed no instance and no encoder. -/
def ErrorUndone (e : Event CapturePool PoolOp PoolAnswer) : Prop :=
  ∀ error, e.output = .channel (.error error) → SameInstances e.before e.after

/-- The instance of the failed encoder has another one. -/
def HasOther (p : CapturePool) (failure : StreamTaskFailure) : Prop :=
  ∀ source target, failure.place = some (source, target) →
    ∃ t, t ≠ target ∧ p.encoderAt source t ≠ none

/-- The operation leaves no capture without an encoder behind: a capture it starts gets its
encoder, an encoder it drops is not the last. -/
def Tidy (p : CapturePool) : PoolOp → Prop
  | .subscribe source _ bitrate platform => p.Opens source platform → EncoderReady bitrate platform
  | .changeSource _ newSource _ bitrate platform =>
    p.Opens newSource platform → EncoderReady bitrate platform
  | .changeBitrate _ _ _ _ => True
  | .unsubscribe _ _ => True
  | .evict _ _ => True
  | .removeFailed failure => p.IsCurrent failure → p.HasOther failure

theorem hygienic_new (supportsProcessCapture : Bool) : (new supportsProcessCapture).Hygienic := by
  intro source i h
  nomatch h

theorem SameInstances.refl (p : CapturePool) : SameInstances p p := fun _ => rfl

theorem Hygienic.put {i : AudioCaptureInstance} (h : p.Hygienic)
    (hi : ∃ t, i.encoderAt t ≠ none) : (p.put source i).Hygienic := by
  intro s j hj
  rw [put_lookup] at hj
  split at hj
  · exact Option.some.inj hj ▸ hi
  · exact h s j hj

theorem Hygienic.drop (h : p.Hygienic) : (p.drop source).Hygienic := by
  intro s i hi
  rw [drop_lookup] at hi
  split at hi
  · nomatch hi
  · exact h s i hi

theorem opened_not_hygienic : ¬(p.opened source).Hygienic := by
  intro h
  obtain ⟨t, ht⟩ := h source _ (opened_lookup.trans (if_pos rfl))
  exact ht (new_encoderAt _ _)

theorem spawned_runs {i i' : AudioCaptureInstance} (h : i.Spawned target bitrate i') :
    ∃ t, i'.encoderAt t ≠ none := by
  obtain ⟨encoder, -, hencoder⟩ := h.encoderAt_eq
  exact ⟨target, by rw [hencoder, if_pos rfl]; exact Option.some_ne_none _⟩

/-- A subscription is clean exactly if a capture it starts gets its encoder. -/
theorem Subscribed.clean_iff (h : p.Subscribed source target bitrate platform answer)
    (hp : p.Hygienic) :
    answer.1.Hygienic ∧ (∀ e, answer.2 = .error e → SameInstances p answer.1) ↔
      (p.Opens source platform → EncoderReady bitrate platform) := by
  cases h with
  | failed hopens =>
    exact iff_of_true ⟨hp, fun _ _ => .refl p⟩ fun h => absurd h hopens
  | leaked hopens hready =>
    exact iff_of_false (fun h => opened_not_hygienic h.1) fun h => hready (h hopens)
  | @started p' i i' channel hready hensured hlookup hspawned =>
    refine iff_of_true ⟨fun s j hj => ?_, nofun⟩ hready
    rw [put_lookup] at hj
    split at hj
    · exact Option.some.inj hj ▸ spawned_runs hspawned
    · rename_i hs
      cases hensured with
      | running => exact hp s j hj
      | started =>
        rw [opened_lookup, if_neg hs] at hj
        exact hp s j hj

theorem Hygienic.unsubscribe (h : p.Hygienic) : (p.unsubscribe source target).Hygienic := by
  rw [unsubscribe_eq]
  cases p.instances.lookup source with
  | none => exact h
  | some i =>
    dsimp only
    split
    · exact h.drop
    · rename_i hidle
      exact h.put (not_isIdle_iff.mp (Bool.not_eq_true _ ▸ hidle))

/-- A change of source is clean exactly if a capture it starts gets its encoder. -/
theorem changeSource_clean_iff (hp : p.Hygienic) (oldSource : AudioSource) :
    (p.changeSource oldSource source target bitrate platform).1.Hygienic ∧
        (∀ e, (p.changeSource oldSource source target bitrate platform).2 = .error e →
          SameInstances p (p.changeSource oldSource source target bitrate platform).1) ↔
      (p.Opens source platform → EncoderReady bitrate platform) := by
  unfold changeSource
  split
  · exact subscribeWithChannel_subscribed.clean_iff hp
  · dsimp only
    generalize hsub : p.subscribeWithChannel source target bitrate _ platform = answer
    have hanswer : p.Subscribed source target bitrate platform answer :=
      hsub ▸ subscribeWithChannel_subscribed
    have hclean := hanswer.clean_iff hp
    obtain ⟨p', result⟩ := answer
    cases result with
    | error e => exact hclean
    | ok channel =>
      refine iff_of_true ⟨?_, nofun⟩ ?_
      · cases hanswer with
        | started => exact (hclean.mpr ‹_›).1.unsubscribe
      · cases hanswer with
        | started hready => exact hready

/-- A change of bitrate is always clean. -/
theorem Restarted.clean (h : p.Restarted source target bitrate answer) (hp : p.Hygienic) :
    answer.1.Hygienic ∧ ∀ e, answer.2 = .error e → SameInstances p answer.1 := by
  cases h with
  | failed => exact ⟨hp, fun _ _ => .refl p⟩
  | started hlookup hspawned => exact ⟨hp.put (spawned_runs hspawned), nofun⟩

/-- A failed encoder is dropped cleanly exactly if it is not the last. -/
theorem removeFailedTarget_clean_iff (hp : p.Hygienic) :
    (p.removeFailedTarget failure).1.Hygienic ↔ (p.IsCurrent failure → p.HasOther failure) := by
  cases hplace : failure.place with
  | none =>
    cases failure with
    | capture source generation message => exact iff_of_true hp fun _ _ _ h => nomatch h
    | udpEncoder => nomatch hplace
    | tcpEncoder => nomatch hplace
  | some place =>
    obtain ⟨source, target⟩ := place
    rcases removeFailedTarget_eq (p := p) hplace with ⟨hcurrent, i, hlookup, heq⟩ | ⟨hstale, heq⟩
    · rw [heq]
      constructor
      · rintro hclean - s t hst
        obtain ⟨rfl, rfl⟩ := Prod.mk.inj (Option.some.inj (hplace.symm.trans hst))
        obtain ⟨t', ht'⟩ := hclean source _ (put_lookup.trans (if_pos rfl))
        rw [removeEncoder_encoderAt] at ht'
        split at ht'
        · exact absurd rfl ht'
        · exact ⟨t', ‹_›, by rwa [encoderAt_of_lookup hlookup]⟩
      · intro hother
        obtain ⟨t, hne, ht⟩ := hother hcurrent source target hplace
        refine hp.put ⟨t, ?_⟩
        rwa [removeEncoder_encoderAt, if_neg hne, ← encoderAt_of_lookup hlookup]
    · rw [heq]
      exact iff_of_true hp fun h => absurd h hstale

theorem errorUndone_channel {op : PoolOp} {p' : CapturePool}
    {result : Except PoolError (Option Channel)} :
    ErrorUndone ⟨p, op, .channel result, p'⟩ ↔ ∀ e, result = .error e → SameInstances p p' := by
  simp only [ErrorUndone, PoolAnswer.channel.injEq]

/-- One operation keeps the pool clean exactly if it is tidy. -/
theorem step_clean_iff (hp : p.Hygienic) (op : PoolOp) :
    (p.step op).1.Hygienic ∧ ErrorUndone ((machine b).eventAt p op) ↔ p.Tidy op := by
  cases op with
  | subscribe source target bitrate platform =>
    exact (and_congr_right' errorUndone_channel).trans
      (subscribeWithChannel_subscribed.clean_iff hp)
  | changeSource oldSource newSource target bitrate platform =>
    exact (and_congr_right' errorUndone_channel).trans (changeSource_clean_iff hp oldSource)
  | changeBitrate source target bitrate platform =>
    exact iff_of_true ((and_congr_right' errorUndone_channel).mpr
      (changeBitrate_restarted.clean hp)) trivial
  | unsubscribe source target => exact iff_of_true ⟨hp.unsubscribe, nofun⟩ trivial
  | evict source generation =>
    refine iff_of_true ⟨?_, nofun⟩ trivial
    show (p.evictFailedSource source generation).1.Hygienic
    obtain ⟨-, heq⟩ | ⟨-, heq⟩ := @evictFailedSource_eq p source generation ""
    · rw [heq]
      exact hp.drop
    · rw [heq]
      exact hp
  | removeFailed failure =>
    exact (and_iff_left nofun).trans (removeFailedTarget_clean_iff hp)

/-- In every run of the pool, after every operation every instance has an encoder and a
failed request has changed nothing, exactly if every operation is tidy. -/
theorem hygiene_iff (supportsProcessCapture : Bool) (ops : List PoolOp) :
    (∀ e ∈ (machine supportsProcessCapture).events ops, e.after.Hygienic ∧ ErrorUndone e) ↔
      ∀ e ∈ (machine supportsProcessCapture).events ops, e.before.Tidy e.input :=
  (machine supportsProcessCapture).kept_iff_from (I := Hygienic)
    (fun _ op hp => step_clean_iff hp op) (hygienic_new supportsProcessCapture)

/-- The address of a phone. -/
def phone : SocketAddr := ⟨.v4 3232235786, 23556⟩

/-- A platform that grants everything. -/
def workingPlatform : Platform := ⟨.ok (), true, 0⟩

/-- A platform whose codec cannot be created. -/
def codeclessPlatform : Platform := ⟨.ok (), false, 0⟩

/-- The codec fails after the capture started. -/
def abandonedCapture : List PoolOp :=
  [.subscribe .desktop (.udp phone) (some 96000) codeclessPlatform]

/-- The only encoder fails. -/
def lastEncoderFails : List PoolOp :=
  [.subscribe .desktop (.udp phone) none workingPlatform,
    .removeFailed (.udpEncoder .desktop 1 1 phone "send failed")]

theorem not_hygiene :
    (¬∀ e ∈ (machine false).events abandonedCapture, e.after.Hygienic ∧ ErrorUndone e) ∧
      ¬∀ e ∈ (machine false).events lastEncoderFails, e.after.Hygienic ∧ ErrorUndone e := by
  have hidle (p : CapturePool) (i : AudioCaptureInstance)
      (hlookup : p.instances.lookup .desktop = some i) (hidle : i.isIdle = true) :
      ¬p.Hygienic := by
    intro hclean
    obtain ⟨t, ht⟩ := hclean .desktop i hlookup
    exact ht (isIdle_iff.mp hidle t)
  constructor
  · intro h
    have hafter := (h _ List.mem_cons_self).1
    exact hidle _ (.new .desktop 1) (by rfl) (by rfl) hafter
  · intro h
    have hafter := (h _ (List.mem_cons_of_mem _ List.mem_cons_self)).1
    exact hidle _ ⟨.desktop, 1, 1, ∅, ∅⟩ (by rfl) (by rfl) hafter

end CapturePool

end Gemacast.Streamer
