import Gemacast.Streamer.PoolSpec
import Mathlib.Order.Basic

/-!
# The numbers of captures and encoders

Every capture and every encoder gets the next number of its counter. As long as no counter
runs over, what the pool keeps is older and what it adds is newer than the counters were,
so the number of a task that is gone is never given out again.
-/

namespace Gemacast.Streamer

open AudioCaptureInstance

/-- The last number of a counter. -/
def lastNumber : UInt64 := -1

theorem nextGeneration_toNat {g : UInt64} (h : g ≠ lastNumber) :
    (nextGeneration g).toNat = g.toNat + 1 := by
  have hne : g.toNat ≠ 2 ^ 64 - 1 := fun heq => h (UInt64.toNat_inj.mp heq)
  have hbound := g.toNat_lt
  have hnext : (g + 1).toNat = g.toNat + 1 := by
    rw [UInt64.toNat_add, UInt64.toNat_one, Nat.mod_eq_of_lt (by omega)]
  have hge : ¬g + 1 ≤ 1 ∨ g + 1 = 1 := by
    rw [UInt64.le_iff_toNat_le, ← UInt64.toNat_inj, hnext, UInt64.toNat_one]
    omega
  unfold nextGeneration
  rw [show max (g + 1) 1 = if g + 1 ≤ 1 then 1 else g + 1 from rfl]
  obtain hlt | heq := hge
  · rw [if_neg hlt, hnext]
  · rw [heq, if_pos (UInt64.le_refl 1), ← hnext, heq]

namespace AudioCaptureInstance

variable {i i' i'' : AudioCaptureInstance} {target : TargetId} {bitrate : Option ℤ}

/-- Every encoder has a number of the counter. -/
def Numbered (i : AudioCaptureInstance) : Prop :=
  ∀ t encoder, i.encoderAt t = some encoder → encoder.generation.toNat ≤
    i.nextEncoderGeneration.toNat

/-- The same capture later: its encoders are old ones or newer than the counter was. -/
structure Ages (i i' : AudioCaptureInstance) : Prop where
  generation : i'.generation = i.generation
  counter : i.nextEncoderGeneration.toNat ≤ i'.nextEncoderGeneration.toNat
  encoder : ∀ t encoder, i'.encoderAt t = some encoder → i.encoderAt t = some encoder ∨
    i.nextEncoderGeneration.toNat < encoder.generation.toNat ∧
      encoder.generation.toNat ≤ i'.nextEncoderGeneration.toNat

theorem Ages.refl (i : AudioCaptureInstance) : i.Ages i :=
  ⟨rfl, le_refl _, fun _ _ h => .inl h⟩

theorem Ages.trans (h : i.Ages i') (h' : i'.Ages i'') : i.Ages i'' := by
  refine ⟨h'.generation.trans h.generation, h.counter.trans h'.counter, fun t encoder ht => ?_⟩
  obtain hold | ⟨hnew, hle⟩ := h'.encoder t encoder ht
  · obtain hold | ⟨hnew, hle⟩ := h.encoder t encoder hold
    · exact .inl hold
    · exact .inr ⟨hnew, hle.trans h'.counter⟩
  · exact .inr ⟨lt_of_le_of_lt h.counter hnew, hle⟩

theorem Ages.numbered (h : i.Ages i') (hi : i.Numbered) : i'.Numbered := by
  intro t encoder ht
  obtain hold | ⟨-, hle⟩ := h.encoder t encoder ht
  · exact (hi t encoder hold).trans h.counter
  · exact hle

theorem ages_removeEncoder : i.Ages (i.removeEncoder target) := by
  refine ⟨removeEncoder_generation, by rw [removeEncoder_nextEncoderGeneration], ?_⟩
  intro t encoder ht
  rw [removeEncoder_encoderAt] at ht
  split at ht
  · nomatch ht
  · exact .inl ht

theorem Spawned.ages (h : i.Spawned target bitrate i')
    (hroom : i.nextEncoderGeneration ≠ lastNumber) :
    i.Ages i' := by
  cases h with
  | kept => exact .refl i
  | fresh hbitrate hencoder hgeneration hnext =>
    have hsucc := nextGeneration_toNat hroom
    refine ⟨hgeneration, by rw [hnext]; omega, fun t encoder ht => ?_⟩
    rw [hencoder] at ht
    split at ht
    · obtain rfl := Option.some.inj ht
      refine .inr ⟨?_, ?_⟩
      · change _ < (nextGeneration i.nextEncoderGeneration).toNat
        omega
      · rw [hnext]
    · exact .inl ht

theorem numbered_new (source : AudioSource) (generation : UInt64) :
    (new source generation).Numbered := by
  intro t encoder ht
  rw [new_encoderAt] at ht
  nomatch ht

end AudioCaptureInstance

namespace CapturePool

variable {p p' p'' : CapturePool} {source : AudioSource} {target : TargetId} {bitrate : Option ℤ}
  {platform : Platform} {i i' : AudioCaptureInstance}

/-- No counter is at its last number. -/
def HasNumbers (p : CapturePool) : Prop :=
  p.nextGeneration ≠ lastNumber ∧
    ∀ entry ∈ p.instances.entries, entry.2.nextEncoderGeneration ≠ lastNumber

instance (p : CapturePool) : Decidable p.HasNumbers :=
  inferInstanceAs (Decidable (_ ∧ ∀ entry ∈ p.instances.entries, _))

theorem HasNumbers.encoder (h : p.HasNumbers) (hlookup : p.instances.lookup source = some i) :
    i.nextEncoderGeneration ≠ lastNumber :=
  h.2 ⟨source, i⟩ (Core.Table.lookup_eq_some_iff.mp hlookup)

/-- Every capture and every encoder has a number of its counter. -/
def Numbered (p : CapturePool) : Prop :=
  ∀ source i, p.instances.lookup source = some i →
    i.generation.toNat ≤ p.nextGeneration.toNat ∧ i.Numbered

/-- The same pool later: its captures are old ones or newer than the counter was. -/
structure Grows (p p' : CapturePool) : Prop where
  counter : p.nextGeneration.toNat ≤ p'.nextGeneration.toNat
  capture : ∀ source i', p'.instances.lookup source = some i' →
    (∃ i, p.instances.lookup source = some i ∧ i.Ages i') ∨
      p.nextGeneration.toNat < i'.generation.toNat ∧
        i'.generation.toNat ≤ p'.nextGeneration.toNat ∧ i'.Numbered

theorem Grows.refl (p : CapturePool) : p.Grows p :=
  ⟨le_refl _, fun _ i h => .inl ⟨i, h, .refl i⟩⟩

theorem Grows.trans (h : p.Grows p') (h' : p'.Grows p'') : p.Grows p'' := by
  refine ⟨h.counter.trans h'.counter, fun source i'' hi'' => ?_⟩
  obtain ⟨i', hi', hages'⟩ | ⟨hnew, hle, hnumbered⟩ := h'.capture source i'' hi''
  · obtain ⟨i, hi, hages⟩ | ⟨hnew, hle, hnumbered⟩ := h.capture source i' hi'
    · exact .inl ⟨i, hi, hages.trans hages'⟩
    · rw [← hages'.generation] at hnew hle
      exact .inr ⟨hnew, hle.trans h'.counter, hages'.numbered hnumbered⟩
  · exact .inr ⟨lt_of_le_of_lt h.counter hnew, hle, hnumbered⟩

theorem Grows.numbered (h : p.Grows p') (hp : p.Numbered) : p'.Numbered := by
  intro source i' hi'
  obtain ⟨i, hi, hages⟩ | ⟨-, hle, hnumbered⟩ := h.capture source i' hi'
  · obtain ⟨hle, hnumbered⟩ := hp source i hi
    exact ⟨hages.generation ▸ hle.trans h.counter, hages.numbered hnumbered⟩
  · exact ⟨hle, hnumbered⟩

theorem grows_drop : p.Grows (p.drop source) := by
  refine ⟨le_refl _, fun s i hi => ?_⟩
  rw [drop_lookup] at hi
  split at hi
  · nomatch hi
  · exact .inl ⟨i, hi, .refl i⟩

theorem grows_put (hlookup : p.instances.lookup source = some i) (h : i.Ages i') :
    p.Grows (p.put source i') := by
  refine ⟨le_refl _, fun s j hj => ?_⟩
  rw [put_lookup] at hj
  split at hj
  · rename_i hs
    exact .inl ⟨i, hs ▸ hlookup, Option.some.inj hj ▸ h⟩
  · exact .inl ⟨j, hj, .refl j⟩

theorem grows_opened (h : p.HasNumbers) : p.Grows (p.opened source) := by
  have hsucc := nextGeneration_toNat h.1
  have hcounter : (p.opened source).nextGeneration.toNat = p.nextGeneration.toNat + 1 := hsucc
  refine ⟨by omega, fun s i hi => ?_⟩
  rw [opened_lookup] at hi
  split at hi
  · obtain rfl := Option.some.inj hi
    refine .inr ⟨?_, le_refl _, numbered_new _ _⟩
    change _ < (Streamer.nextGeneration p.nextGeneration).toNat
    omega
  · exact .inl ⟨i, hi, .refl i⟩

theorem grows_shutdownAll : p.Grows p.shutdownAll :=
  ⟨le_refl _, fun _ _ h => nomatch h⟩

theorem Subscribed.grows {answer : CapturePool × Except PoolError (Option Channel)}
    (h : p.Subscribed source target bitrate platform answer) (hp : p.HasNumbers) :
    p.Grows answer.1 := by
  cases h with
  | failed => exact .refl p
  | leaked => exact grows_opened hp
  | started hready hensured hlookup hspawned =>
    cases hensured with
    | running => exact grows_put hlookup (hspawned.ages (hp.encoder hlookup))
    | started =>
      refine (grows_opened hp).trans (grows_put hlookup (hspawned.ages ?_))
      rw [opened_lookup, if_pos rfl, Option.some_inj] at hlookup
      rw [← hlookup]
      exact (by decide : (0 : UInt64) ≠ lastNumber)

theorem grows_unsubscribe : p.Grows (p.unsubscribe source target) := by
  rw [unsubscribe_eq]
  cases hlookup : p.instances.lookup source with
  | none => exact .refl p
  | some i =>
    dsimp only
    split
    · exact grows_drop
    · exact grows_put hlookup ages_removeEncoder

theorem grows_changeSource (hp : p.HasNumbers) (oldSource : AudioSource) :
    p.Grows (p.changeSource oldSource source target bitrate platform).1 := by
  unfold changeSource
  split
  · exact subscribeWithChannel_subscribed.grows hp
  · dsimp only
    generalize hsub : p.subscribeWithChannel source target bitrate _ platform = answer
    have hanswer : p.Subscribed source target bitrate platform answer :=
      hsub ▸ subscribeWithChannel_subscribed
    have hgrows := hanswer.grows hp
    obtain ⟨p', result⟩ := answer
    cases result with
    | error e => exact hgrows
    | ok channel => exact hgrows.trans grows_unsubscribe

theorem grows_changeBitrate (hp : p.HasNumbers) :
    p.Grows (p.changeBitrate source target bitrate platform).1 := by
  have hrestarted := @changeBitrate_restarted p source target bitrate platform
  generalize p.changeBitrate source target bitrate platform = answer at hrestarted ⊢
  cases hrestarted with
  | failed => exact .refl p
  | started hlookup hspawned => exact grows_put hlookup (hspawned.ages (hp.encoder hlookup))

theorem grows_evictFailedSource (generation : UInt64) :
    p.Grows (p.evictFailedSource source generation).1 := by
  obtain ⟨-, heq⟩ | ⟨-, heq⟩ := @evictFailedSource_eq p source generation ""
  · rw [heq]
    exact grows_drop
  · rw [heq]
    exact .refl p

theorem grows_removeFailedTarget (failure : StreamTaskFailure) :
    p.Grows (p.removeFailedTarget failure).1 := by
  cases hplace : failure.place with
  | none =>
    cases failure with
    | capture => exact .refl p
    | udpEncoder => nomatch hplace
    | tcpEncoder => nomatch hplace
  | some place =>
    obtain ⟨source, target⟩ := place
    obtain ⟨-, i, hlookup, heq⟩ | ⟨-, heq⟩ := removeFailedTarget_eq (p := p) hplace
    · rw [heq]
      exact grows_put hlookup ages_removeEncoder
    · rw [heq]
      exact .refl p

/-- The encoder with this number runs in the capture with that number. -/
def RunsEncoder (p : CapturePool) (source : AudioSource) (generation encoderGeneration : UInt64)
    (target : TargetId) : Prop :=
  ∃ i encoder, p.instances.lookup source = some i ∧ i.generation = generation ∧
    i.encoderAt target = some encoder ∧ encoder.generation = encoderGeneration

/-- The numbers of an encoder have been given out. -/
def IssuedEncoder (p : CapturePool) (source : AudioSource)
    (generation encoderGeneration : UInt64) : Prop :=
  generation.toNat ≤ p.nextGeneration.toNat ∧ ∀ i, p.instances.lookup source = some i →
    i.generation = generation → encoderGeneration.toNat ≤ i.nextEncoderGeneration.toNat

variable {generation encoderGeneration : UInt64} {failure : StreamTaskFailure}

theorem RunsEncoder.issued (hp : p.Numbered)
    (h : p.RunsEncoder source generation encoderGeneration target) :
    p.IssuedEncoder source generation encoderGeneration := by
  obtain ⟨i, encoder, hlookup, rfl, hencoder, rfl⟩ := h
  obtain ⟨hle, hnumbered⟩ := hp source i hlookup
  refine ⟨hle, fun j hj _ => ?_⟩
  obtain rfl := Option.some.inj (hlookup.symm.trans hj)
  exact hnumbered target encoder hencoder

theorem IssuedEncoder.grows (h : p.IssuedEncoder source generation encoderGeneration)
    (hgrows : p.Grows p') : p'.IssuedEncoder source generation encoderGeneration := by
  obtain ⟨hle, hencoder⟩ := h
  refine ⟨hle.trans hgrows.counter, fun i' hi' hgeneration => ?_⟩
  obtain ⟨i, hi, hages⟩ | ⟨hnew, -, -⟩ := hgrows.capture source i' hi'
  · exact (hencoder i hi (hages.generation.symm.trans hgeneration)).trans hages.counter
  · rw [hgeneration] at hnew
    omega

/-- The numbers of an encoder that is gone are not given out again. -/
theorem IssuedEncoder.stays_gone (h : p.IssuedEncoder source generation encoderGeneration)
    (hgrows : p.Grows p') (hgone : ¬p.RunsEncoder source generation encoderGeneration target) :
    ¬p'.RunsEncoder source generation encoderGeneration target := by
  rintro ⟨i', encoder, hi', rfl, hencoder, rfl⟩
  obtain ⟨i, hi, hages⟩ | ⟨hnew, -, -⟩ := hgrows.capture source i' hi'
  · obtain hold | ⟨hnew, -⟩ := hages.encoder target encoder hencoder
    · exact hgone ⟨i, encoder, hi, hages.generation.symm, hold, rfl⟩
    · have hle := h.2 i hi hages.generation.symm
      omega
  · have hle := h.1
    omega

/-- The numbers of a task have been given out. -/
def Issued (p : CapturePool) : StreamTaskFailure → Prop
  | .capture _ generation _ => generation.toNat ≤ p.nextGeneration.toNat
  | .udpEncoder source generation encoderGeneration _ _ =>
    p.IssuedEncoder source generation encoderGeneration
  | .tcpEncoder source generation encoderGeneration _ _ =>
    p.IssuedEncoder source generation encoderGeneration

theorem IsCurrent.issued (hp : p.Numbered) (h : p.IsCurrent failure) : p.Issued failure := by
  cases failure with
  | capture source generation message =>
    obtain ⟨i, hlookup, rfl⟩ := h
    exact (hp source i hlookup).1
  | udpEncoder => exact RunsEncoder.issued hp h
  | tcpEncoder => exact RunsEncoder.issued hp h

theorem Issued.grows (h : p.Issued failure) (hgrows : p.Grows p') : p'.Issued failure := by
  cases failure with
  | capture => exact Nat.le_trans h hgrows.counter
  | udpEncoder => exact IssuedEncoder.grows h hgrows
  | tcpEncoder => exact IssuedEncoder.grows h hgrows

/-- The numbers of a task that is gone are not given out again. -/
theorem Issued.stays_gone (h : p.Issued failure) (hgrows : p.Grows p')
    (hgone : ¬p.IsCurrent failure) : ¬p'.IsCurrent failure := by
  cases failure with
  | capture source generation message =>
    rintro ⟨i', hi', rfl⟩
    obtain ⟨i, hi, hages⟩ | ⟨hnew, -, -⟩ := hgrows.capture source i' hi'
    · exact hgone ⟨i, hi, hages.generation.symm⟩
    · exact absurd h (Nat.not_le.mpr hnew)
  | udpEncoder => exact IssuedEncoder.stays_gone h hgrows hgone
  | tcpEncoder => exact IssuedEncoder.stays_gone h hgrows hgone

end CapturePool

end Gemacast.Streamer
