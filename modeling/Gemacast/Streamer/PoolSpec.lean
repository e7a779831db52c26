import Gemacast.Streamer.Pool

/-!
# The encoders of the pool

What the pool operations do to the encoders, read by source and target. Every operation
is described by what it does to one place; all the others are untouched.
-/

namespace Gemacast.Streamer

open Gemacast.Core

namespace AudioCaptureInstance

variable {i i' : AudioCaptureInstance} {target t : TargetId} {bitrate : Option ℤ}
  {platform : Platform}

/-- The encoder of a target, without its channel. -/
def encoderAt (i : AudioCaptureInstance) : TargetId → Option PerTargetEncoder
  | .udp addr => i.perTargetEncoders.lookup addr
  | .tcp deviceId =>
    (i.tcpEncoders.lookup deviceId).map fun encoder => ⟨encoder.bitrate, encoder.generation⟩

/-- Stop the encoder of a target. -/
def removeEncoder (i : AudioCaptureInstance) : TargetId → AudioCaptureInstance
  | .udp addr => i.removeTargetEncoder addr
  | .tcp deviceId => i.removeTcpEncoder deviceId

/-- Start the encoder of a target. -/
def spawnEncoder (i : AudioCaptureInstance) (target : TargetId) (bitrate : Option ℤ)
    (reusableChannel : Option Channel) (platform : Platform) :
    Except PoolError (AudioCaptureInstance × Option Channel) :=
  match target with
  | .udp addr => (i.spawnTargetEncoder addr bitrate platform).map fun i => (i, none)
  | .tcp deviceId =>
    (i.spawnTcpEncoderWithChannel deviceId bitrate reusableChannel platform).map fun answer =>
      (answer.1, some answer.2)

@[simp] theorem new_encoderAt (source : AudioSource) (generation : UInt64) :
    (new source generation).encoderAt t = none := by
  cases t <;> rfl

theorem removeEncoder_encoderAt :
    (i.removeEncoder target).encoderAt t = if t = target then none else i.encoderAt t := by
  cases target <;> cases t <;>
    simp only [removeEncoder, removeTargetEncoder, removeTcpEncoder, encoderAt,
      Table.lookup_erase_eq, TargetId.udp.injEq, TargetId.tcp.injEq, reduceCtorEq, if_false]
  split <;> rfl

@[simp] theorem removeEncoder_generation :
    (i.removeEncoder target).generation = i.generation := by
  cases target <;> rfl

@[simp] theorem removeEncoder_nextEncoderGeneration :
    (i.removeEncoder target).nextEncoderGeneration = i.nextEncoderGeneration := by
  cases target <;> rfl

theorem isIdle_iff : i.isIdle = true ↔ ∀ t, i.encoderAt t = none := by
  unfold isIdle
  rw [Bool.and_eq_true, Table.isEmpty_iff, Table.isEmpty_iff]
  constructor
  · rintro ⟨hudp, htcp⟩ (addr | deviceId)
    · exact hudp addr
    · exact Option.map_eq_none_iff.mpr (htcp deviceId)
  · intro h
    exact ⟨fun addr => h (.udp addr),
      fun deviceId => Option.map_eq_none_iff.mp (h (.tcp deviceId))⟩

theorem not_isIdle_iff : i.isIdle = false ↔ ∃ t, i.encoderAt t ≠ none := by
  rw [← Bool.not_eq_true, isIdle_iff, not_forall]

/-- A new encoder can be created. -/
def EncoderReady (bitrate : Option ℤ) (platform : Platform) : Prop :=
  ∃ b, requestedBitrate bitrate = .ok b ∧ createCodec b platform = .ok ()

/-- What a started encoder changes in its instance: nothing if it runs at the bitrate
already, else the place of its target and the newest number. -/
inductive Spawned (i : AudioCaptureInstance) (target : TargetId) (bitrate : Option ℤ) :
    AudioCaptureInstance → Prop
  | kept {encoder : PerTargetEncoder} (hbitrate : requestedBitrate bitrate = .ok encoder.bitrate)
      (hencoder : i.encoderAt target = some encoder) : Spawned i target bitrate i
  | fresh {i' : AudioCaptureInstance} {b : AudioBitrate}
      (hbitrate : requestedBitrate bitrate = .ok b)
      (hencoder : ∀ t, i'.encoderAt t =
        if t = target then some ⟨b, nextGeneration i.nextEncoderGeneration⟩ else i.encoderAt t)
      (hgeneration : i'.generation = i.generation)
      (hnext : i'.nextEncoderGeneration = nextGeneration i.nextEncoderGeneration) :
      Spawned i target bitrate i'

/-- The encoder put at its target; the other places keep theirs. -/
theorem Spawned.encoderAt_eq (h : i.Spawned target bitrate i') :
    ∃ encoder : PerTargetEncoder, requestedBitrate bitrate = .ok encoder.bitrate ∧
      ∀ t, i'.encoderAt t = if t = target then some encoder else i.encoderAt t := by
  cases h with
  | kept hbitrate hencoder =>
    refine ⟨_, hbitrate, fun t => ?_⟩
    split
    · rename_i ht
      rw [ht, hencoder]
    · rfl
  | fresh hbitrate hencoder => exact ⟨⟨_, _⟩, hbitrate, hencoder⟩

theorem Spawned.generation_eq (h : i.Spawned target bitrate i') :
    i'.generation = i.generation := by
  cases h with
  | kept => rfl
  | fresh _ _ hgeneration => exact hgeneration

theorem spawnTargetEncoder_spawned {addr : SocketAddr}
    (h : i.spawnTargetEncoder addr bitrate platform = .ok i') :
    i.Spawned (.udp addr) bitrate i' := by
  unfold spawnTargetEncoder at h
  cases hbitrate : requestedBitrate bitrate with
  | error e => simp [hbitrate] at h
  | ok b =>
    simp only [hbitrate] at h
    split at h
    · rename_i hruns
      obtain rfl := Except.ok.inj h
      obtain ⟨encoder, hencoder, hsame⟩ := (Option.any_eq_true _ _).mp hruns
      exact .kept (of_decide_eq_true hsame ▸ hbitrate) hencoder
    · split at h
      · nomatch h
      · obtain rfl := Except.ok.inj h
        refine .fresh hbitrate (fun t => ?_) rfl rfl
        have hremoved := @removeEncoder_encoderAt i (.udp addr) t
        cases t with
        | tcp deviceId => rfl
        | udp other =>
          by_cases ht : other = addr
          · rw [if_pos (by rw [ht]), encoderAt, ht, AList.lookup_insert]
            rfl
          · have hne : TargetId.udp other ≠ .udp addr := fun heq => ht (TargetId.udp.inj heq)
            rw [if_neg hne] at hremoved ⊢
            rw [← hremoved, encoderAt, AList.lookup_insert_ne ht]
            rfl

theorem spawnTcpEncoderWithChannel_spawned {deviceId : DeviceId} {channel : Channel}
    {reusableChannel : Option Channel}
    (h : i.spawnTcpEncoderWithChannel deviceId bitrate reusableChannel platform =
      .ok (i', channel)) : i.Spawned (.tcp deviceId) bitrate i' := by
  unfold spawnTcpEncoderWithChannel at h
  cases hbitrate : requestedBitrate bitrate with
  | error e => simp [hbitrate] at h
  | ok b =>
    simp only [hbitrate] at h
    split at h
    · rename_i existing hruns
      obtain ⟨hencoder, hsame⟩ := Option.filter_eq_some_iff.mp hruns
      obtain ⟨rfl, -⟩ := Prod.mk.inj (Except.ok.inj h)
      have hkept : i.encoderAt (.tcp deviceId) = some ⟨existing.bitrate, existing.generation⟩ := by
        rw [encoderAt, hencoder, Option.map_some]
      exact .kept (of_decide_eq_true hsame ▸ hbitrate) hkept
    · split at h
      · nomatch h
      · obtain ⟨rfl, -⟩ := Prod.mk.inj (Except.ok.inj h)
        refine .fresh hbitrate (fun t => ?_) rfl rfl
        have hremoved := @removeEncoder_encoderAt i (.tcp deviceId) t
        cases t with
        | udp addr => rfl
        | tcp other =>
          by_cases ht : other = deviceId
          · rw [if_pos (by rw [ht]), encoderAt, ht, AList.lookup_insert]
            rfl
          · have hne : TargetId.tcp other ≠ .tcp deviceId := fun heq => ht (TargetId.tcp.inj heq)
            rw [if_neg hne] at hremoved ⊢
            rw [← hremoved, encoderAt, AList.lookup_insert_ne ht]
            rfl

/-- Starting an encoder touches its own place only. -/
theorem spawnEncoder_spawned {reusableChannel channel : Option Channel}
    (h : i.spawnEncoder target bitrate reusableChannel platform = .ok (i', channel)) :
    i.Spawned target bitrate i' := by
  unfold spawnEncoder at h
  cases target with
  | udp addr =>
    cases hspawn : i.spawnTargetEncoder addr bitrate platform with
    | error e => simp [hspawn, Except.map] at h
    | ok spawned =>
      simp only [hspawn, Except.map, Except.ok.injEq, Prod.mk.injEq] at h
      exact h.1 ▸ spawnTargetEncoder_spawned hspawn
  | tcp deviceId =>
    cases hspawn : i.spawnTcpEncoderWithChannel deviceId bitrate reusableChannel platform with
    | error e => simp [hspawn, Except.map] at h
    | ok spawned =>
      simp only [hspawn, Except.map, Except.ok.injEq, Prod.mk.injEq] at h
      exact h.1 ▸ spawnTcpEncoderWithChannel_spawned hspawn

/-- An encoder is granted: it runs at the bitrate already, or it can be created. -/
def Grants (running : Option PerTargetEncoder) (bitrate : Option ℤ) (platform : Platform) : Prop :=
  ∃ b, requestedBitrate bitrate = .ok b ∧
    (running.map (·.bitrate) = some b ∨ createCodec b platform = .ok ())

theorem grants_none : Grants none bitrate platform ↔ EncoderReady bitrate platform := by
  simp [Grants, EncoderReady]

/-- An encoder is started exactly if it is granted. -/
theorem spawnEncoder_ok_iff {reusableChannel : Option Channel} :
    (∃ answer, i.spawnEncoder target bitrate reusableChannel platform = .ok answer) ↔
      Grants (i.encoderAt target) bitrate platform := by
  unfold Grants
  cases target with
  | udp addr =>
    simp only [spawnEncoder, spawnTargetEncoder, encoderAt]
    cases hbitrate : requestedBitrate bitrate with
    | error e => simp [Except.map]
    | ok b =>
      cases hrunning : i.perTargetEncoders.lookup addr with
      | none => cases hcodec : createCodec b platform <;> simp [Except.map, hcodec]
      | some encoder =>
        by_cases hsame : encoder.bitrate = b
        · simp [Except.map, hsame]
        · cases hcodec : createCodec b platform <;> simp [Except.map, hsame, hcodec]
  | tcp deviceId =>
    simp only [spawnEncoder, spawnTcpEncoderWithChannel, encoderAt]
    cases hbitrate : requestedBitrate bitrate with
    | error e => simp [Except.map]
    | ok b =>
      cases hrunning : i.tcpEncoders.lookup deviceId with
      | none => cases hcodec : createCodec b platform <;> simp [Except.map, hcodec]
      | some encoder =>
        by_cases hsame : encoder.bitrate = b
        · simp [Except.map, hsame, Option.filter]
        · cases hcodec : createCodec b platform <;>
            simp [Except.map, hsame, hcodec, Option.filter]

end AudioCaptureInstance

/-- The place of the encoder that failed. -/
def StreamTaskFailure.place : StreamTaskFailure → Option (AudioSource × TargetId)
  | .capture _ _ _ => none
  | .udpEncoder source _ _ addr _ => some (source, .udp addr)
  | .tcpEncoder source _ _ deviceId _ => some (source, .tcp deviceId)

namespace CapturePool

open AudioCaptureInstance

variable {p p' : CapturePool} {source s : AudioSource} {target t : TargetId} {bitrate : Option ℤ}
  {reusableChannel : Option Channel} {platform : Platform} {failure : StreamTaskFailure}

/-- The encoder of a target on a source. -/
def encoderAt (p : CapturePool) (source : AudioSource) (target : TargetId) :
    Option PerTargetEncoder :=
  (p.instances.lookup source).bind fun i => i.encoderAt target

/-- Put an instance in place of the one of its source. -/
def put (p : CapturePool) (source : AudioSource) (i : AudioCaptureInstance) : CapturePool :=
  { p with instances := p.instances.insert source i }

/-- Take the instance of a source out. -/
def drop (p : CapturePool) (source : AudioSource) : CapturePool :=
  { p with instances := p.instances.erase source }

theorem put_lookup {i : AudioCaptureInstance} :
    (p.put source i).instances.lookup s = if s = source then some i else p.instances.lookup s :=
  Table.lookup_insert_eq

theorem drop_lookup :
    (p.drop source).instances.lookup s = if s = source then none else p.instances.lookup s :=
  Table.lookup_erase_eq

theorem put_encoderAt {i : AudioCaptureInstance} :
    (p.put source i).encoderAt s t = if s = source then i.encoderAt t else p.encoderAt s t := by
  unfold encoderAt
  rw [put_lookup]
  split <;> rfl

theorem drop_encoderAt :
    (p.drop source).encoderAt s t = if s = source then none else p.encoderAt s t := by
  unfold encoderAt
  rw [drop_lookup]
  split <;> rfl

theorem encoderAt_of_lookup {i : AudioCaptureInstance} (h : p.instances.lookup source = some i) :
    p.encoderAt source t = i.encoderAt t := by
  rw [encoderAt, h, Option.bind_some]

/-- A capture of the source would be started now. -/
def Opens (p : CapturePool) (source : AudioSource) (platform : Platform) : Prop :=
  p.instances.lookup source = none ∧ p.instances.size < maxInstances ∧
    p.createCapture source platform = .ok ()

/-- The pool with a new capture of the source. -/
def opened (p : CapturePool) (source : AudioSource) : CapturePool :=
  { p with nextGeneration := Streamer.nextGeneration p.nextGeneration }.put source
    (.new source (Streamer.nextGeneration p.nextGeneration))

theorem opened_lookup :
    (p.opened source).instances.lookup s =
      if s = source then some (.new source (Streamer.nextGeneration p.nextGeneration))
      else p.instances.lookup s :=
  put_lookup

theorem opened_encoderAt (h : p.instances.lookup source = none) :
    (p.opened source).encoderAt s t = p.encoderAt s t := by
  unfold encoderAt
  rw [opened_lookup]
  split
  · rename_i hs
    rw [hs, h, Option.bind_some, Option.bind_none, new_encoderAt]
  · rfl

/-- The pool once the source is captured. -/
inductive Ensured (p : CapturePool) (source : AudioSource) (platform : Platform) :
    CapturePool → Prop
  | running {i : AudioCaptureInstance} (hlookup : p.instances.lookup source = some i) :
      Ensured p source platform p
  | started (hopens : p.Opens source platform) : Ensured p source platform (p.opened source)

theorem Ensured.encoderAt_eq (h : p.Ensured source platform p') :
    p'.encoderAt s t = p.encoderAt s t := by
  cases h with
  | running => rfl
  | started hopens => exact opened_encoderAt hopens.1

theorem ensureInstance_error {e : PoolError} (h : p.ensureInstance source platform = .error e) :
    ¬p.Opens source platform := by
  rintro ⟨hnone, hroom, hcapture⟩
  simp [ensureInstance, hnone, Nat.not_le.mpr hroom, hcapture] at h

theorem ensureInstance_ok {i : AudioCaptureInstance}
    (h : p.ensureInstance source platform = .ok (p', i)) :
    p.Ensured source platform p' ∧ p'.instances.lookup source = some i := by
  unfold ensureInstance at h
  cases hlookup : p.instances.lookup source with
  | some running =>
    simp only [hlookup, Except.ok.injEq, Prod.mk.injEq] at h
    obtain ⟨rfl, rfl⟩ := h
    exact ⟨.running hlookup, hlookup⟩
  | none =>
    simp only [hlookup] at h
    split at h
    · nomatch h
    · rename_i hroom
      cases hcapture : p.createCapture source platform with
      | error e => simp [hcapture] at h
      | ok _ =>
        simp only [hcapture, Except.ok.injEq, Prod.mk.injEq] at h
        obtain ⟨rfl, rfl⟩ := h
        exact ⟨.started ⟨hlookup, Nat.not_le.mp hroom, hcapture⟩, AList.lookup_insert _⟩

theorem subscribeWithChannel_eq :
    p.subscribeWithChannel source target bitrate reusableChannel platform =
      match p.ensureInstance source platform with
      | .error e => (p, .error e)
      | .ok (p, i) =>
        match i.spawnEncoder target bitrate reusableChannel platform with
        | .error e => (p, .error e)
        | .ok (i, channel) => (p.put source i, .ok channel) := by
  unfold subscribeWithChannel
  cases p.ensureInstance source platform with
  | error e => rfl
  | ok answer =>
    obtain ⟨p, i⟩ := answer
    cases target with
    | udp addr =>
      cases h : i.spawnTargetEncoder addr bitrate platform <;>
        simp [spawnEncoder, h, put, Except.map]
    | tcp deviceId =>
      cases h : i.spawnTcpEncoderWithChannel deviceId bitrate reusableChannel platform <;>
        simp [spawnEncoder, h, put, Except.map]

/-- What a subscription does: it fails and changes nothing, it fails and leaves a capture
behind, or it starts the encoder. -/
inductive Subscribed (p : CapturePool) (source : AudioSource) (target : TargetId)
    (bitrate : Option ℤ) (platform : Platform) :
    CapturePool × Except PoolError (Option Channel) → Prop
  | failed {e : PoolError} (hopens : ¬p.Opens source platform) :
      Subscribed p source target bitrate platform (p, .error e)
  | leaked {e : PoolError} (hopens : p.Opens source platform)
      (hready : ¬EncoderReady bitrate platform) :
      Subscribed p source target bitrate platform (p.opened source, .error e)
  | started {p' : CapturePool} {i i' : AudioCaptureInstance} {channel : Option Channel}
      (hready : p.Opens source platform → EncoderReady bitrate platform)
      (hensured : p.Ensured source platform p') (hlookup : p'.instances.lookup source = some i)
      (hspawned : i.Spawned target bitrate i') :
      Subscribed p source target bitrate platform (p'.put source i', .ok channel)

theorem subscribeWithChannel_subscribed :
    p.Subscribed source target bitrate platform
      (p.subscribeWithChannel source target bitrate reusableChannel platform) := by
  rw [subscribeWithChannel_eq]
  cases hensure : p.ensureInstance source platform with
  | error e => exact .failed (ensureInstance_error hensure)
  | ok answer =>
    obtain ⟨p', i⟩ := answer
    obtain ⟨hensured, hlookup⟩ := ensureInstance_ok hensure
    have hnew : p.Opens source platform → ((∃ answer,
        i.spawnEncoder target bitrate reusableChannel platform = .ok answer) ↔
          EncoderReady bitrate platform) := by
      intro hopens
      cases hensured with
      | running hrunning => exact absurd (hopens.1.symm.trans hrunning) nofun
      | started =>
        rw [opened_lookup, if_pos rfl, Option.some_inj] at hlookup
        rw [spawnEncoder_ok_iff, ← hlookup, new_encoderAt, grants_none]
    dsimp only
    cases hspawn : i.spawnEncoder target bitrate reusableChannel platform with
    | ok spawned =>
      exact .started (fun hopens => (hnew hopens).mp ⟨spawned, hspawn⟩) hensured hlookup
        (spawnEncoder_spawned hspawn)
    | error e =>
      cases hensured with
      | running hrunning => exact .failed fun hopens => nomatch hopens.1.symm.trans hrunning
      | started hopens =>
        refine .leaked hopens fun hready => ?_
        obtain ⟨answer, hanswer⟩ := (hnew hopens).mpr hready
        exact nomatch hspawn.symm.trans hanswer

/-- Where the source is captured a subscription succeeds exactly if its encoder is granted. -/
theorem subscribeWithChannel_ok_iff (h : p.encoderAt source t ≠ none) :
    (∃ channel, (p.subscribeWithChannel source target bitrate reusableChannel platform).2 =
        .ok channel) ↔ Grants (p.encoderAt source target) bitrate platform := by
  cases hlookup : p.instances.lookup source with
  | none => exact absurd (by rw [encoderAt, hlookup, Option.bind_none]) h
  | some i =>
    have hensure : p.ensureInstance source platform = .ok (p, i) := by
      rw [ensureInstance, hlookup]
    rw [subscribeWithChannel_eq, hensure, encoderAt_of_lookup hlookup,
      ← @spawnEncoder_ok_iff _ _ _ _ reusableChannel]
    dsimp only
    cases hspawn : i.spawnEncoder target bitrate reusableChannel platform <;> simp

/-- What a subscription leaves at every place. -/
theorem Subscribed.encoderAt_eq {answer : CapturePool × Except PoolError (Option Channel)}
    (h : p.Subscribed source target bitrate platform answer) :
    (∃ e, answer.2 = .error e ∧ ∀ s t, answer.1.encoderAt s t = p.encoderAt s t) ∨
      ∃ channel encoder, answer.2 = .ok channel ∧
        requestedBitrate bitrate = .ok encoder.bitrate ∧
        ∀ s t, answer.1.encoderAt s t =
          if s = source ∧ t = target then some encoder else p.encoderAt s t := by
  cases h with
  | failed => exact .inl ⟨_, rfl, fun s t => rfl⟩
  | leaked hopens => exact .inl ⟨_, rfl, fun s t => opened_encoderAt hopens.1⟩
  | started hready hensured hlookup hspawned =>
    obtain ⟨encoder, hbitrate, hencoder⟩ := hspawned.encoderAt_eq
    refine .inr ⟨_, encoder, rfl, hbitrate, fun s t => ?_⟩
    rw [put_encoderAt, ← hensured.encoderAt_eq]
    by_cases hs : s = source
    · rw [if_pos hs, hencoder, hs, encoderAt_of_lookup hlookup]
      by_cases ht : t = target <;> simp [ht]
    · rw [if_neg hs, if_neg fun hboth => hs hboth.1]

theorem unsubscribe_eq :
    p.unsubscribe source target =
      match p.instances.lookup source with
      | none => p
      | some i =>
        if (i.removeEncoder target).isIdle then p.drop source
        else p.put source (i.removeEncoder target) := by
  unfold unsubscribe
  cases p.instances.lookup source with
  | none => rfl
  | some i => cases target <;> rfl

theorem unsubscribe_encoderAt :
    (p.unsubscribe source target).encoderAt s t =
      if s = source ∧ t = target then none else p.encoderAt s t := by
  rw [unsubscribe_eq]
  cases hlookup : p.instances.lookup source with
  | none =>
    by_cases hboth : s = source ∧ t = target
    · rw [if_pos hboth, encoderAt, hboth.1, hlookup, Option.bind_none]
    · rw [if_neg hboth]
  | some i =>
    have hremoved := @removeEncoder_encoderAt i target t
    by_cases hs : s = source
    · subst hs
      rw [encoderAt_of_lookup hlookup]
      dsimp only
      by_cases hidle : (i.removeEncoder target).isIdle = true
      · rw [if_pos hidle, drop_encoderAt, if_pos rfl]
        rw [isIdle_iff.mp hidle] at hremoved
        simpa only [true_and] using hremoved
      · rw [if_neg hidle, put_encoderAt, if_pos rfl, hremoved]
        simp only [true_and]
    · have hnot : ¬(s = source ∧ t = target) := fun hboth => hs hboth.1
      rw [if_neg hnot]
      dsimp only
      split
      · rw [drop_encoderAt, if_neg hs]
      · rw [put_encoderAt, if_neg hs]

/-- What a change of source leaves at every place. -/
theorem changeSource_encoderAt {oldSource : AudioSource} :
    (∃ e, (p.changeSource oldSource source target bitrate platform).2 = .error e ∧
      ∀ s t, (p.changeSource oldSource source target bitrate platform).1.encoderAt s t =
        p.encoderAt s t) ∨
      ∃ channel encoder,
        (p.changeSource oldSource source target bitrate platform).2 = .ok channel ∧
        requestedBitrate bitrate = .ok encoder.bitrate ∧
        ∀ s t, (p.changeSource oldSource source target bitrate platform).1.encoderAt s t =
          if s = source ∧ t = target then some encoder
          else if s = oldSource ∧ t = target then none else p.encoderAt s t := by
  unfold changeSource
  split
  · rename_i hsame
    obtain hfailed | ⟨channel, encoder, hok, hbitrate, hencoder⟩ :=
      (@subscribeWithChannel_subscribed p source target bitrate none platform).encoderAt_eq
    · exact .inl hfailed
    · refine .inr ⟨channel, encoder, hok, hbitrate, fun s t => (hencoder s t).trans ?_⟩
      rw [hsame]
      split <;> rfl
  · rename_i hne
    dsimp only
    generalize hsub : p.subscribeWithChannel source target bitrate _ platform = answer
    have hanswer : p.Subscribed source target bitrate platform answer :=
      hsub ▸ subscribeWithChannel_subscribed
    obtain ⟨p', result⟩ := answer
    obtain ⟨e, rfl, hsame⟩ | ⟨channel, encoder, rfl, hbitrate, hencoder⟩ := hanswer.encoderAt_eq
    · exact .inl ⟨e, rfl, hsame⟩
    · refine .inr ⟨channel, encoder, rfl, hbitrate, fun s t => ?_⟩
      rw [unsubscribe_encoderAt, hencoder]
      by_cases hold : s = oldSource ∧ t = target
      · rw [if_pos hold, if_neg fun hnew => hne (hold.1.symm.trans hnew.1), if_pos hold]
      · rw [if_neg hold, if_neg hold]

/-- Where the new source is captured its change succeeds exactly if the encoder is granted. -/
theorem changeSource_ok_iff {oldSource : AudioSource} (h : p.encoderAt source t ≠ none) :
    (∃ channel, (p.changeSource oldSource source target bitrate platform).2 = .ok channel) ↔
      Grants (p.encoderAt source target) bitrate platform := by
  unfold changeSource
  split
  · exact subscribeWithChannel_ok_iff h
  · dsimp only
    generalize hsub : p.subscribeWithChannel source target bitrate _ platform = answer
    have hok : (∃ channel, answer.2 = .ok channel) ↔
        Grants (p.encoderAt source target) bitrate platform :=
      hsub ▸ subscribeWithChannel_ok_iff h
    obtain ⟨p', result⟩ := answer
    rw [← hok]
    cases result <;> rfl

/-- What a change of bitrate does: nothing when it fails, else it starts the encoder in the
running instance. -/
inductive Restarted (p : CapturePool) (source : AudioSource) (target : TargetId)
    (bitrate : Option ℤ) : CapturePool × Except PoolError (Option Channel) → Prop
  | failed {e : PoolError} : Restarted p source target bitrate (p, .error e)
  | started {i i' : AudioCaptureInstance} {channel : Option Channel}
      (hlookup : p.instances.lookup source = some i) (hspawned : i.Spawned target bitrate i') :
      Restarted p source target bitrate (p.put source i', .ok channel)

theorem changeBitrate_restarted :
    p.Restarted source target bitrate (p.changeBitrate source target bitrate platform) := by
  unfold changeBitrate
  cases hlookup : p.instances.lookup source with
  | none => exact .failed
  | some i =>
    cases target with
    | udp addr =>
      cases hspawn : i.spawnTargetEncoder addr bitrate platform with
      | error e => simpa only [hspawn] using .failed
      | ok spawned =>
        simpa only [hspawn] using .started hlookup (spawnTargetEncoder_spawned hspawn)
    | tcp deviceId =>
      cases hspawn : i.spawnTcpEncoderWithChannel deviceId bitrate none platform with
      | error e => simpa only [hspawn] using .failed
      | ok spawned =>
        simpa only [hspawn] using .started hlookup (spawnTcpEncoderWithChannel_spawned hspawn)

/-- What a change of bitrate leaves at every place. -/
theorem Restarted.encoderAt_eq {answer : CapturePool × Except PoolError (Option Channel)}
    (h : p.Restarted source target bitrate answer) :
    (∃ e, answer = (p, .error e)) ∨
      ∃ channel encoder, answer.2 = .ok channel ∧
        requestedBitrate bitrate = .ok encoder.bitrate ∧
        ∀ s t, answer.1.encoderAt s t =
          if s = source ∧ t = target then some encoder else p.encoderAt s t := by
  cases h with
  | failed => exact .inl ⟨_, rfl⟩
  | started hlookup hspawned =>
    obtain ⟨encoder, hbitrate, hencoder⟩ := hspawned.encoderAt_eq
    refine .inr ⟨_, encoder, rfl, hbitrate, fun s t => ?_⟩
    rw [put_encoderAt]
    by_cases hs : s = source
    · rw [if_pos hs, hencoder, hs, encoderAt_of_lookup hlookup]
      by_cases ht : t = target <;> simp [ht]
    · rw [if_neg hs, if_neg fun hboth => hs hboth.1]

/-- The task that failed still runs in the pool. -/
def IsCurrent (p : CapturePool) : StreamTaskFailure → Prop
  | .capture source generation _ =>
    ∃ i, p.instances.lookup source = some i ∧ i.generation = generation
  | .udpEncoder source generation encoderGeneration addr _ =>
    ∃ i encoder, p.instances.lookup source = some i ∧ i.generation = generation ∧
      i.encoderAt (.udp addr) = some encoder ∧ encoder.generation = encoderGeneration
  | .tcpEncoder source generation encoderGeneration deviceId _ =>
    ∃ i encoder, p.instances.lookup source = some i ∧ i.generation = generation ∧
      i.encoderAt (.tcp deviceId) = some encoder ∧ encoder.generation = encoderGeneration

/-- A failure of a capture is obeyed exactly if the capture still runs. -/
theorem evictFailedSource_eq {generation : UInt64} {message : String} :
    p.IsCurrent (.capture source generation message) ∧
        p.evictFailedSource source generation = (p.drop source, true) ∨
      ¬p.IsCurrent (.capture source generation message) ∧
        p.evictFailedSource source generation = (p, false) := by
  unfold evictFailedSource IsCurrent
  cases hlookup : p.instances.lookup source with
  | none => simp [hlookup]
  | some i => by_cases h : i.generation = generation <;> simp [hlookup, h, drop]

/-- A failure of an encoder is obeyed exactly if the encoder still runs. -/
theorem removeFailedTarget_eq (hplace : failure.place = some (source, target)) :
    (p.IsCurrent failure ∧ ∃ i, p.instances.lookup source = some i ∧
        p.removeFailedTarget failure = (p.put source (i.removeEncoder target), true)) ∨
      ¬p.IsCurrent failure ∧ p.removeFailedTarget failure = (p, false) := by
  cases failure with
  | capture => nomatch hplace
  | udpEncoder source generation encoderGeneration addr message =>
    obtain ⟨rfl, rfl⟩ := Prod.mk.inj (Option.some.inj hplace)
    unfold removeFailedTarget IsCurrent
    cases hlookup : p.instances.lookup source with
    | none => simp [hlookup]
    | some i =>
      by_cases h : i.generation = generation
      · cases hencoder : i.perTargetEncoders.lookup addr with
        | none => simp [hlookup, AudioCaptureInstance.encoderAt, hencoder]
        | some encoder =>
          by_cases hsame : encoder.generation = encoderGeneration <;>
            simp [hlookup, AudioCaptureInstance.encoderAt, hencoder, h, hsame, put, removeEncoder]
      · simp [hlookup, h]
  | tcpEncoder source generation encoderGeneration deviceId message =>
    obtain ⟨rfl, rfl⟩ := Prod.mk.inj (Option.some.inj hplace)
    unfold removeFailedTarget IsCurrent
    cases hlookup : p.instances.lookup source with
    | none => simp [hlookup]
    | some i =>
      by_cases h : i.generation = generation
      · cases hencoder : i.tcpEncoders.lookup deviceId with
        | none => simp [hlookup, AudioCaptureInstance.encoderAt, hencoder]
        | some encoder =>
          by_cases hsame : encoder.generation = encoderGeneration <;>
            simp [hlookup, AudioCaptureInstance.encoderAt, hencoder, h, hsame, put, removeEncoder]
      · simp [hlookup, h]

theorem evictFailedSource_of_stale {generation : UInt64} {message : String}
    (h : ¬p.IsCurrent (.capture source generation message)) :
    p.evictFailedSource source generation = (p, false) := by
  obtain ⟨hcurrent, -⟩ | ⟨-, heq⟩ := @evictFailedSource_eq p source generation message
  · exact absurd hcurrent h
  · exact heq

theorem removeFailedTarget_of_stale (h : ¬p.IsCurrent failure) :
    p.removeFailedTarget failure = (p, false) := by
  cases hplace : failure.place with
  | none =>
    cases failure with
    | capture => rfl
    | udpEncoder => nomatch hplace
    | tcpEncoder => nomatch hplace
  | some place =>
    obtain ⟨hcurrent, -⟩ | ⟨-, heq⟩ := removeFailedTarget_eq (p := p) hplace
    · exact absurd hcurrent h
    · exact heq

/-- Without its failed encoder an instance keeps the others. -/
theorem removeFailed_encoderAt {i : AudioCaptureInstance}
    (hlookup : p.instances.lookup source = some i) :
    (p.put source (i.removeEncoder target)).encoderAt s t =
      if s = source ∧ t = target then none else p.encoderAt s t := by
  rw [put_encoderAt]
  by_cases hs : s = source
  · rw [if_pos hs, removeEncoder_encoderAt, hs, encoderAt_of_lookup hlookup]
    by_cases ht : t = target <;> simp [ht]
  · rw [if_neg hs, if_neg fun hboth => hs hboth.1]

end CapturePool

end Gemacast.Streamer
