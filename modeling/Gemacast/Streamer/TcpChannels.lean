import Gemacast.Streamer.PoolSpec
import Gemacast.Streamer.Stale

/-!
# The channels of devices on ADB or USB

A channel passes from one encoder of a device to the next, and with a new subscription from
one session to the next. At every time each channel in use is that of one device, and that
device has a session on the source the channel is fed from.
-/

namespace Gemacast.Streamer

open Gemacast.Core

variable {d deviceId : DeviceId} {c : Channel} {source s : AudioSource} {target : TargetId}
  {bitrate : Option ℤ} {platform : Platform}

namespace AudioCaptureInstance

variable {i i' : AudioCaptureInstance} {reusableChannel channel : Option Channel}

theorem removeEncoder_tcpBroadcaster (h : (i.removeEncoder target).tcpBroadcaster d = some c) :
    i.tcpBroadcaster d = some c ∧ target ≠ .tcp d := by
  cases target with
  | udp addr => exact ⟨h, nofun⟩
  | tcp other =>
    change ((i.tcpEncoders.erase other).lookup d).map _ = _ at h
    rw [Table.lookup_erase_eq] at h
    split at h
    · nomatch h
    · next hne => exact ⟨h, fun heq => hne (TargetId.tcp.inj heq).symm⟩

theorem spawnTargetEncoder_tcpEncoders {addr : SocketAddr}
    (hspawn : i.spawnTargetEncoder addr bitrate platform = .ok i') :
    i'.tcpEncoders = i.tcpEncoders := by
  unfold spawnTargetEncoder at hspawn
  split at hspawn
  · nomatch hspawn
  · split at hspawn
    · exact congrArg tcpEncoders (Except.ok.inj hspawn).symm
    · split at hspawn
      · nomatch hspawn
      · obtain rfl := Except.ok.inj hspawn
        rfl

/-- The encoder of a device keeps its channel, or takes over the one handed to it, or opens one. -/
theorem spawnTcpEncoderWithChannel_tcpBroadcaster {own : Channel}
    (hspawn : i.spawnTcpEncoderWithChannel deviceId bitrate reusableChannel platform =
      .ok (i', own)) (h : i'.tcpBroadcaster d = some c) :
    i.tcpBroadcaster d = some c ∨
      deviceId = d ∧ (reusableChannel = some c ∨ c = platform.channel) := by
  unfold spawnTcpEncoderWithChannel at hspawn
  split at hspawn
  · nomatch hspawn
  · split at hspawn
    · obtain ⟨rfl, -⟩ := Prod.mk.inj (Except.ok.inj hspawn)
      exact .inl h
    · split at hspawn
      · nomatch hspawn
      · obtain ⟨rfl, -⟩ := Prod.mk.inj (Except.ok.inj hspawn)
        change (((i.tcpEncoders.erase deviceId).insert deviceId _).lookup d).map _ = some c at h
        rw [Table.lookup_insert_eq, Table.lookup_erase_eq] at h
        split at h
        · next heq =>
          subst heq
          have hchannel := Option.some.inj h
          cases hreusable : reusableChannel with
          | some handed =>
            rw [hreusable] at hchannel
            exact .inr ⟨rfl, .inl (congrArg some hchannel)⟩
          | none =>
            cases hrunning : i.tcpBroadcaster d with
            | some running =>
              rw [hreusable, hrunning] at hchannel
              exact .inl (congrArg some hchannel)
            | none =>
              rw [hreusable, hrunning] at hchannel
              exact .inr ⟨rfl, .inr hchannel.symm⟩
        · exact .inl h

/-- Starting an encoder changes the channel of its own device only. -/
theorem spawnEncoder_tcpBroadcaster
    (hspawn : i.spawnEncoder target bitrate reusableChannel platform = .ok (i', channel))
    (h : i'.tcpBroadcaster d = some c) :
    i.tcpBroadcaster d = some c ∨
      target = .tcp d ∧ (reusableChannel = some c ∨ c = platform.channel) := by
  unfold spawnEncoder at hspawn
  cases target with
  | udp addr =>
    cases hspawned : i.spawnTargetEncoder addr bitrate platform with
    | error e => simp [hspawned, Except.map] at hspawn
    | ok spawned =>
      simp only [hspawned, Except.map, Except.ok.injEq, Prod.mk.injEq] at hspawn
      obtain ⟨rfl, -⟩ := hspawn
      rw [tcpBroadcaster, spawnTargetEncoder_tcpEncoders hspawned] at h
      exact .inl h
  | tcp deviceId =>
    cases hspawned : i.spawnTcpEncoderWithChannel deviceId bitrate reusableChannel platform with
    | error e => simp [hspawned, Except.map] at hspawn
    | ok spawned =>
      simp only [hspawned, Except.map, Except.ok.injEq, Prod.mk.injEq] at hspawn
      obtain ⟨rfl, -⟩ := hspawn
      obtain hkept | ⟨rfl, hnew⟩ := spawnTcpEncoderWithChannel_tcpBroadcaster hspawned h
      · exact .inl hkept
      · exact .inr ⟨rfl, hnew⟩

end AudioCaptureInstance

namespace CapturePool

open AudioCaptureInstance

variable {p p' : CapturePool} {i : AudioCaptureInstance} {reusableChannel : Option Channel}

theorem tcpBroadcaster_of_lookup (h : p.instances.lookup source = some i) :
    p.tcpBroadcaster source d = i.tcpBroadcaster d := by
  rw [tcpBroadcaster, h, Option.bind_some]

theorem put_tcpBroadcaster : (p.put source i).tcpBroadcaster s d =
    if s = source then i.tcpBroadcaster d else p.tcpBroadcaster s d := by
  unfold tcpBroadcaster
  rw [put_lookup]
  split <;> rfl

theorem drop_tcpBroadcaster : (p.drop source).tcpBroadcaster s d =
    if s = source then none else p.tcpBroadcaster s d := by
  unfold tcpBroadcaster
  rw [drop_lookup]
  split <;> rfl

theorem Ensured.tcpBroadcaster_eq (h : p.Ensured source platform p') :
    p'.tcpBroadcaster s d = p.tcpBroadcaster s d := by
  cases h with
  | running => rfl
  | started hopens =>
    unfold tcpBroadcaster
    rw [opened_lookup]
    split
    · next hs =>
      rw [hs, hopens.1]
      rfl
    · rfl

/-- A channel in use after a subscription was in use there before, or is that of the subscriber,
handed over or new. -/
theorem subscribeWithChannel_tcpBroadcaster
    (h : (p.subscribeWithChannel source target bitrate reusableChannel platform).1.tcpBroadcaster
      s d = some c) :
    p.tcpBroadcaster s d = some c ∨
      (∃ channel, (p.subscribeWithChannel source target bitrate reusableChannel platform).2 =
        .ok channel) ∧ s = source ∧ target = .tcp d ∧
          (reusableChannel = some c ∨ c = platform.channel) := by
  rw [subscribeWithChannel_eq] at h ⊢
  cases hensure : p.ensureInstance source platform with
  | error e =>
    rw [hensure] at h
    exact .inl h
  | ok answer =>
    obtain ⟨p', i⟩ := answer
    obtain ⟨hensured, hlookup⟩ := ensureInstance_ok hensure
    rw [hensure] at h
    dsimp only at h ⊢
    cases hspawn : i.spawnEncoder target bitrate reusableChannel platform with
    | error e =>
      rw [hspawn] at h
      exact .inl (hensured.tcpBroadcaster_eq ▸ h)
    | ok spawned =>
      obtain ⟨i', channel⟩ := spawned
      rw [hspawn] at h
      change (p'.put source i').tcpBroadcaster s d = some c at h
      rw [put_tcpBroadcaster] at h
      split at h
      · next hs =>
        obtain hkept | ⟨htarget, hnew⟩ := spawnEncoder_tcpBroadcaster hspawn h
        · left
          rw [hs, ← hensured.tcpBroadcaster_eq, tcpBroadcaster_of_lookup hlookup]
          exact hkept
        · exact .inr ⟨⟨channel, rfl⟩, hs, htarget, hnew⟩
      · exact .inl (hensured.tcpBroadcaster_eq ▸ h)

/-- An instance without an encoder has no channel for it. -/
theorem put_removeEncoder_tcpBroadcaster (hlookup : p.instances.lookup source = some i)
    (h : (p.put source (i.removeEncoder target)).tcpBroadcaster s d = some c) :
    p.tcpBroadcaster s d = some c ∧ ¬(s = source ∧ target = .tcp d) := by
  rw [put_tcpBroadcaster] at h
  split at h
  · next hs =>
    obtain ⟨hkept, hne⟩ := removeEncoder_tcpBroadcaster h
    exact ⟨by rw [hs, tcpBroadcaster_of_lookup hlookup, hkept], fun hboth => hne hboth.2⟩
  · next hs => exact ⟨h, fun hboth => hs hboth.1⟩

/-- What is unsubscribed has no channel. -/
theorem unsubscribe_tcpBroadcaster (h : (p.unsubscribe source target).tcpBroadcaster s d = some c) :
    p.tcpBroadcaster s d = some c ∧ ¬(s = source ∧ target = .tcp d) := by
  rw [unsubscribe_eq] at h
  cases hlookup : p.instances.lookup source with
  | none =>
    rw [hlookup] at h
    refine ⟨h, ?_⟩
    rintro ⟨rfl, -⟩
    rw [tcpBroadcaster, hlookup] at h
    nomatch h
  | some i =>
    rw [hlookup] at h
    dsimp only at h
    split at h
    · rw [drop_tcpBroadcaster] at h
      split at h
      · nomatch h
      · next hs => exact ⟨h, fun hboth => hs hboth.1⟩
    · exact put_removeEncoder_tcpBroadcaster hlookup h

/-- A change of source takes the channel of the target along. -/
theorem changeSource_tcpBroadcaster {oldSource : AudioSource}
    (h : (p.changeSource oldSource source target bitrate platform).1.tcpBroadcaster s d = some c) :
    (p.tcpBroadcaster s d = some c ∧
      ((∃ channel, (p.changeSource oldSource source target bitrate platform).2 = .ok channel) →
        s = oldSource → target = .tcp d → s = source)) ∨
      (∃ channel, (p.changeSource oldSource source target bitrate platform).2 = .ok channel) ∧
        s = source ∧ target = .tcp d ∧
          (p.tcpBroadcaster oldSource d = some c ∨ c = platform.channel) := by
  by_cases hsame : oldSource = source
  · have heq : p.changeSource oldSource source target bitrate platform =
        p.subscribeWithChannel source target bitrate none platform := if_pos hsame
    rw [heq] at h ⊢
    obtain hkept | ⟨hok, hs, htarget, hnone | hnew⟩ := subscribeWithChannel_tcpBroadcaster h
    · exact .inl ⟨hkept, fun _ hs _ => hs.trans hsame⟩
    · cases hnone
    · exact .inr ⟨hok, hs, htarget, .inr hnew⟩
  · obtain ⟨reused, hreused, herror, hok⟩ : ∃ reused, (target = .tcp d →
        reused = p.tcpBroadcaster oldSource d) ∧
          (∀ p' e, p.subscribeWithChannel source target bitrate reused platform =
              (p', .error e) →
            p.changeSource oldSource source target bitrate platform = (p', .error e)) ∧
          ∀ p' channel, p.subscribeWithChannel source target bitrate reused platform =
              (p', .ok channel) →
            p.changeSource oldSource source target bitrate platform =
              (p'.unsubscribe oldSource target, .ok channel) := by
      unfold changeSource
      rw [if_neg hsame]
      cases target with
      | udp addr =>
        dsimp only
        refine ⟨none, ?_, fun p' e hsub => by rw [hsub], fun p' channel hsub => by rw [hsub]⟩
        rintro ⟨⟩
      | tcp deviceId =>
        dsimp only
        refine ⟨p.tcpBroadcaster oldSource deviceId, ?_, fun p' e hsub => by rw [hsub],
          fun p' channel hsub => by rw [hsub]⟩
        rintro ⟨⟩
        rfl
    have hsub := @subscribeWithChannel_tcpBroadcaster d c source s target bitrate platform p reused
    generalize p.subscribeWithChannel source target bitrate reused platform = answer
      at herror hok hsub
    obtain ⟨p', result⟩ := answer
    cases result with
    | error e =>
      rw [herror p' e rfl] at h ⊢
      obtain hkept | ⟨⟨_, hok⟩, -⟩ := hsub h
      · refine .inl ⟨hkept, ?_⟩
        rintro ⟨_, ⟨⟩⟩
      · cases hok
    | ok channel =>
      rw [hok p' channel rfl] at h ⊢
      obtain ⟨hsubscribed, hnot⟩ := unsubscribe_tcpBroadcaster h
      obtain hkept | ⟨-, hs, htarget, hnew⟩ := hsub hsubscribed
      · exact .inl ⟨hkept, fun _ hs htarget => absurd ⟨hs, htarget⟩ hnot⟩
      · exact .inr ⟨⟨channel, rfl⟩, hs, htarget, hreused htarget ▸ hnew⟩

/-- A bitrate is changed by another encoder of the same source. -/
theorem changeBitrate_of_lookup (target : TargetId) (bitrate : Option ℤ) (platform : Platform)
    {i : AudioCaptureInstance} (hlookup : p.instances.lookup source = some i) :
    (∀ e, i.spawnEncoder target bitrate none platform = .error e →
      p.changeBitrate source target bitrate platform = (p, .error e)) ∧
    ∀ i' channel, i.spawnEncoder target bitrate none platform = .ok (i', channel) →
      p.changeBitrate source target bitrate platform = (p.put source i', .ok channel) := by
  unfold changeBitrate
  rw [hlookup]
  cases target with
  | udp addr =>
    cases h : i.spawnTargetEncoder addr bitrate platform <;>
      simp [spawnEncoder, h, put, Except.map]
  | tcp deviceId =>
    cases h : i.spawnTcpEncoderWithChannel deviceId bitrate none platform <;>
      simp [spawnEncoder, h, put, Except.map]

/-- A change of bitrate keeps the channel. -/
theorem changeBitrate_tcpBroadcaster
    (h : (p.changeBitrate source target bitrate platform).1.tcpBroadcaster s d = some c) :
    p.tcpBroadcaster s d = some c ∨
      (∃ channel, (p.changeBitrate source target bitrate platform).2 = .ok channel) ∧
        s = source ∧ target = .tcp d ∧ c = platform.channel := by
  cases hlookup : p.instances.lookup source with
  | none =>
    have heq : p.changeBitrate source target bitrate platform =
        (p, .error .sourceNotSubscribed) := by
      rw [changeBitrate, hlookup]
    rw [heq] at h
    exact .inl h
  | some i =>
    obtain ⟨herror, hok⟩ := changeBitrate_of_lookup target bitrate platform hlookup
    cases hspawn : i.spawnEncoder target bitrate none platform with
    | error e =>
      rw [herror e hspawn] at h
      exact .inl h
    | ok spawned =>
      obtain ⟨i', channel⟩ := spawned
      rw [hok i' channel hspawn] at h ⊢
      rw [put_tcpBroadcaster] at h
      split at h
      · next hs =>
        obtain hkept | ⟨htarget, hnone | hnew⟩ := spawnEncoder_tcpBroadcaster hspawn h
        · exact .inl (by rw [hs, tcpBroadcaster_of_lookup hlookup, hkept])
        · cases hnone
        · exact .inr ⟨⟨channel, rfl⟩, hs, htarget, hnew⟩
      · exact .inl h

end CapturePool

/-- The device whose encoder a command may start, and the channel that would be opened. -/
def EngineInput.newChannel : EngineInput → Option (DeviceId × Channel)
  | .command (.subscribe deviceId _ _ _ _) platform => some (deviceId, platform.channel)
  | .command (.changeSource deviceId _) platform => some (deviceId, platform.channel)
  | .command (.changeBitrate deviceId _) platform => some (deviceId, platform.channel)
  | _ => none

namespace AudioStreamEngine

variable {e e' : AudioStreamEngine} {session : StreamSession} {generation : UInt64}
  {input : EngineInput} {lease : TcpBroadcastLease}

/-- Every session has a number, and every device with a channel in use has a session on the
source the channel is fed from. -/
structure Serves (e : AudioStreamEngine) : Prop where
  /-- The number of a session. -/
  numbered : ∀ d session, e.activePlayerSessions.lookup d = some session →
    ∃ generation, e.sessionGenerations.lookup d = some generation
  /-- The session of a channel. -/
  session : ∀ s d c, e.pool.tcpBroadcaster s d = some c → ∃ session,
    e.activePlayerSessions.lookup d = some session ∧ session.source = s ∧
      session.target d = .tcp d

theorem serves_new (supportsProcessCapture sessionFailureTx : Bool) :
    (new supportsProcessCapture sessionFailureTx).Serves :=
  ⟨nofun, nofun⟩

theorem targetOf_eq_tcp {targetAddr : Option SocketAddr}
    (h : targetOf targetAddr deviceId = .tcp d) :
    targetAddr = none ∧ deviceId = d := by
  cases targetAddr with
  | none => exact ⟨rfl, TargetId.tcp.inj h⟩
  | some addr => nomatch h

/-- A channel in use is lent to the transport of its device, under the number of its session. -/
theorem Serves.getTcpBroadcaster (h : e.Serves) (hchannel : e.pool.tcpBroadcaster s d = some c) :
    ∃ generation, e.sessionGenerations.lookup d = some generation ∧
      e.getTcpBroadcaster d = some ⟨c, generation⟩ := by
  obtain ⟨session, hlookup, rfl, htarget⟩ := h.session s d c hchannel
  obtain ⟨generation, hgeneration⟩ := h.numbered d session hlookup
  refine ⟨generation, hgeneration, ?_⟩
  unfold AudioStreamEngine.getTcpBroadcaster
  rw [hlookup]
  simp [(targetOf_eq_tcp htarget).1, hchannel, hgeneration]

/-- A channel that is lent is in use. -/
theorem Serves.of_getTcpBroadcaster (h : e.Serves) (hlease : e.getTcpBroadcaster d = some lease) :
    ∃ s, e.pool.tcpBroadcaster s d = some lease.broadcaster ∧
      e.sessionGenerations.lookup d = some lease.sessionGeneration := by
  unfold AudioStreamEngine.getTcpBroadcaster at hlease
  split at hlease
  · nomatch hlease
  · next session hlookup =>
    split at hlease
    · nomatch hlease
    · obtain ⟨c, hchannel, rfl⟩ := Option.map_eq_some_iff.mp hlease
      obtain ⟨generation, hgeneration⟩ := h.numbered d session hlookup
      exact ⟨session.source, hchannel, by rw [hgeneration]; rfl⟩

/-- What a round does to the channels: one that is in use afterwards is a new one of the device
the command is about, or one the device had, and then the session is the same or the one
subscribed. -/
structure Continues (e e' : AudioStreamEngine) (input : EngineInput) : Prop where
  /-- Channels and sessions still go together. -/
  serves : e'.Serves
  /-- Where a channel comes from. -/
  stems : ∀ s d c, e'.pool.tcpBroadcaster s d = some c →
    input.newChannel = some (d, c) ∨ (∃ s', e.pool.tcpBroadcaster s' d = some c) ∧
      (e'.sessionGenerations.lookup d = e.sessionGenerations.lookup d ∨
        ∃ generation, input.subscription = some (d, generation) ∧
          e'.sessionGenerations.lookup d = some generation)

/-- Sessions may leave with their channels. -/
theorem Serves.shrinks (h : e.Serves) (input : EngineInput)
    (hpool : ∀ s d c, e'.pool.tcpBroadcaster s d = some c → e.pool.tcpBroadcaster s d = some c)
    (hsessions : ∀ d, (e'.activePlayerSessions.lookup d = e.activePlayerSessions.lookup d ∧
        e'.sessionGenerations.lookup d = e.sessionGenerations.lookup d) ∨
      e'.activePlayerSessions.lookup d = none ∧ ∀ s, e'.pool.tcpBroadcaster s d = none) :
    e.Continues e' input := by
  refine ⟨⟨fun d session hlookup => ?_, fun s d c hchannel => ?_⟩, fun s d c hchannel => ?_⟩
  · obtain ⟨hsession, hgeneration⟩ | ⟨hnone, -⟩ := hsessions d
    · rw [hgeneration]
      exact h.numbered d session (hsession ▸ hlookup)
    · nomatch hnone.symm.trans hlookup
  · obtain ⟨hsession, -⟩ | ⟨-, hnone⟩ := hsessions d
    · rw [hsession]
      exact h.session s d c (hpool s d c hchannel)
    · nomatch (hnone s).symm.trans hchannel
  · obtain ⟨-, hgeneration⟩ | ⟨-, hnone⟩ := hsessions d
    · exact .inr ⟨⟨s, hpool s d c hchannel⟩, .inl hgeneration⟩
    · nomatch (hnone s).symm.trans hchannel

theorem Serves.unchanged (h : e.Serves) (input : EngineInput) : e.Continues e input :=
  h.shrinks input (fun _ _ _ hchannel => hchannel) fun _ => .inl ⟨rfl, rfl⟩

/-- The session of a device leaves with the encoder of its target. -/
theorem Serves.leaves (h : e.Serves) (input : EngineInput)
    (hlookup : e.activePlayerSessions.lookup deviceId = some session) :
    e.Continues { e.forget deviceId with
      pool := e.pool.unsubscribe session.source (session.target deviceId) } input := by
  refine h.shrinks input
    (fun s d c hchannel => (CapturePool.unsubscribe_tcpBroadcaster hchannel).1) fun d => ?_
  dsimp only [forget]
  rw [Table.lookup_erase_eq, Table.lookup_erase_eq]
  split
  · next hd =>
    subst hd
    refine .inr ⟨rfl, fun s => Option.eq_none_iff_forall_ne_some.mpr fun c hchannel => ?_⟩
    obtain ⟨hbefore, hnot⟩ := CapturePool.unsubscribe_tcpBroadcaster hchannel
    obtain ⟨session', hlookup', hsource, htarget⟩ := h.session s d c hbefore
    obtain rfl := Option.some.inj (hlookup.symm.trans hlookup')
    exact hnot ⟨hsource.symm, htarget⟩
  · exact .inl ⟨rfl, rfl⟩

theorem Serves.unsubscribe (h : e.Serves) (input : EngineInput) :
    e.Continues (e.unsubscribe deviceId).1 input := by
  unfold AudioStreamEngine.unsubscribe
  split
  · exact h.unchanged input
  · next hlookup => exact h.leaves input hlookup

theorem Serves.transportClosed (h : e.Serves) (input : EngineInput) :
    e.Continues (e.transportClosed deviceId generation).1 input := by
  unfold AudioStreamEngine.transportClosed
  split
  · exact h.unchanged input
  · split
    · exact h.unchanged input
    · next hlookup => exact h.leaves input hlookup

theorem Serves.stop (h : e.Serves) (input : EngineInput) : e.Continues e.stop input :=
  h.shrinks input nofun fun _ => .inr ⟨rfl, fun _ => rfl⟩

/-- A device gets a session, and its channel, if it has one, goes over to it. -/
theorem Serves.takes (h : e.Serves)
    (hnew : input.newChannel = some (deviceId, platform.channel))
    (hsession : e'.activePlayerSessions = e.activePlayerSessions.insert deviceId session)
    (hgeneration : (∃ generation, input.subscription = some (deviceId, generation) ∧
        e'.sessionGenerations = e.sessionGenerations.insert deviceId generation) ∨
      e'.sessionGenerations = e.sessionGenerations ∧
        ∃ session, e.activePlayerSessions.lookup deviceId = some session)
    (hchannels : ∀ s d c, e'.pool.tcpBroadcaster s d = some c →
      (e.pool.tcpBroadcaster s d = some c ∧
        ∀ old, e.activePlayerSessions.lookup deviceId = some old → old.source = s →
          old.target deviceId = .tcp d → session.source = s ∧ session.target deviceId = .tcp d) ∨
      s = session.source ∧ session.target deviceId = .tcp d ∧
        ((∃ s', e.pool.tcpBroadcaster s' d = some c) ∨ c = platform.channel)) :
    e.Continues e' input := by
  have hothers : ∀ d, d ≠ deviceId →
      e'.sessionGenerations.lookup d = e.sessionGenerations.lookup d := by
    intro d hd
    obtain ⟨generation, -, heq⟩ | ⟨heq, -⟩ := hgeneration
    · rw [heq, Table.lookup_insert_eq, if_neg hd]
    · rw [heq]
  refine ⟨⟨fun d session' hlookup => ?_, fun s d c hchannel => ?_⟩, fun s d c hchannel => ?_⟩
  · by_cases hd : d = deviceId
    · subst hd
      obtain ⟨generation, -, heq⟩ | ⟨heq, old, hold⟩ := hgeneration
      · exact ⟨generation, by rw [heq, Table.lookup_insert_eq, if_pos rfl]⟩
      · exact heq ▸ h.numbered d old hold
    · rw [hsession, Table.lookup_insert_eq, if_neg hd] at hlookup
      rw [hothers d hd]
      exact h.numbered d session' hlookup
  · rw [hsession, Table.lookup_insert_eq]
    obtain ⟨hbefore, hold⟩ | ⟨rfl, htarget, -⟩ := hchannels s d c hchannel
    · obtain ⟨old, hlookup, hsource, htarget⟩ := h.session s d c hbefore
      by_cases hd : d = deviceId
      · subst hd
        obtain ⟨hsource', htarget'⟩ := hold old hlookup hsource htarget
        exact ⟨session, if_pos rfl, hsource', htarget'⟩
      · exact ⟨old, by rw [if_neg hd, hlookup], hsource, htarget⟩
    · obtain ⟨-, rfl⟩ := targetOf_eq_tcp htarget
      exact ⟨session, if_pos rfl, rfl, htarget⟩
  · have hkept : e'.sessionGenerations.lookup d = e.sessionGenerations.lookup d ∨
        ∃ generation, input.subscription = some (d, generation) ∧
          e'.sessionGenerations.lookup d = some generation := by
      by_cases hd : d = deviceId
      · subst hd
        obtain ⟨generation, hsubscription, heq⟩ | ⟨heq, -⟩ := hgeneration
        · exact .inr ⟨generation, hsubscription, by rw [heq, Table.lookup_insert_eq, if_pos rfl]⟩
        · exact .inl (by rw [heq])
      · exact .inl (hothers d hd)
    obtain ⟨hbefore, -⟩ | ⟨-, htarget, hbefore | rfl⟩ := hchannels s d c hchannel
    · exact .inr ⟨⟨s, hbefore⟩, hkept⟩
    · exact .inr ⟨hbefore, hkept⟩
    · obtain ⟨-, rfl⟩ := targetOf_eq_tcp htarget
      exact .inl hnew

/-- A session begins, or goes over to a new target. -/
theorem Serves.subscribe (h : e.Serves) {targetAddr : Option SocketAddr}
    {asked : Option AudioSource} :
    e.Continues (e.subscribe deviceId generation targetAddr asked bitrate platform).1
      (.command (.subscribe deviceId generation targetAddr asked bitrate) platform) := by
  have hchannels : ∀ s d c, (e.pool.subscribeWithChannel (e.finalSource deviceId asked)
      (targetOf targetAddr deviceId) bitrate none platform).1.tcpBroadcaster s d = some c →
        e.pool.tcpBroadcaster s d = some c ∨
          (∃ channel, (e.pool.subscribeWithChannel (e.finalSource deviceId asked)
            (targetOf targetAddr deviceId) bitrate none platform).2 = .ok channel) ∧
            s = e.finalSource deviceId asked ∧ targetOf targetAddr deviceId = .tcp d ∧
              c = platform.channel := by
    intro s d c hchannel
    obtain hkept | ⟨hok, hs, htarget, hnone | hnew⟩ :=
      CapturePool.subscribeWithChannel_tcpBroadcaster hchannel
    · exact .inl hkept
    · nomatch hnone
    · exact .inr ⟨hok, hs, htarget, hnew⟩
  unfold AudioStreamEngine.subscribe CapturePool.subscribe
  dsimp only
  generalize e.pool.subscribeWithChannel (e.finalSource deviceId asked)
    (targetOf targetAddr deviceId) bitrate none platform = answer at hchannels ⊢
  obtain ⟨pool, result⟩ := answer
  cases result with
  | error error =>
    refine h.shrinks _ (fun s d c hchannel => ?_) fun _ => .inl ⟨rfl, rfl⟩
    obtain hkept | ⟨⟨_, hok⟩, -⟩ := hchannels s d c hchannel
    · exact hkept
    · nomatch hok
  | ok channel =>
    refine h.takes rfl rfl (.inl ⟨generation, rfl, rfl⟩) fun s d c hchannel => ?_
    have hplaces : e.pool.tcpBroadcaster s d = some c ∨ s = e.finalSource deviceId asked ∧
        targetOf targetAddr deviceId = .tcp d ∧ c = platform.channel →
        (∀ old, e.activePlayerSessions.lookup deviceId = some old → old.source = s →
          old.target deviceId = .tcp d → e.finalSource deviceId asked = s ∧
            targetOf targetAddr deviceId = .tcp d) →
        (e.pool.tcpBroadcaster s d = some c ∧
          ∀ old, e.activePlayerSessions.lookup deviceId = some old → old.source = s →
            old.target deviceId = .tcp d → e.finalSource deviceId asked = s ∧
              targetOf targetAddr deviceId = .tcp d) ∨
        s = e.finalSource deviceId asked ∧ targetOf targetAddr deviceId = .tcp d ∧
          ((∃ s', e.pool.tcpBroadcaster s' d = some c) ∨ c = platform.channel) := by
      rintro (hbefore | ⟨hs, htarget, hfresh⟩) hold
      · exact .inl ⟨hbefore, hold⟩
      · exact .inr ⟨hs, htarget, .inr hfresh⟩
    dsimp only at hchannel
    split at hchannel
    · next old hlookup =>
      split at hchannel
      · obtain ⟨hbefore, hnot⟩ := CapturePool.unsubscribe_tcpBroadcaster hchannel
        refine hplaces ((hchannels s d c hbefore).imp_right (·.2)) fun old' hold' hs htarget => ?_
        obtain rfl := Option.some.inj (hlookup.symm.trans hold')
        exact absurd ⟨hs.symm, htarget⟩ hnot
      · next hsame =>
        rw [not_or, not_not, not_not] at hsame
        refine hplaces ((hchannels s d c hchannel).imp_right (·.2)) fun old' hold' hs htarget => ?_
        obtain rfl := Option.some.inj (hlookup.symm.trans hold')
        exact ⟨hsame.1.symm.trans hs, hsame.2.symm.trans htarget⟩
    · next hnone =>
      exact hplaces ((hchannels s d c hchannel).imp_right (·.2)) fun old' hold' =>
        nomatch hnone.symm.trans hold'

/-- A session goes over to another source, and its channel with it. -/
theorem Serves.changeSource (h : e.Serves) :
    e.Continues (e.changeSource deviceId source platform).1
      (.command (.changeSource deviceId source) platform) := by
  unfold AudioStreamEngine.changeSource
  split
  · exact h.unchanged _
  · next session hlookup =>
    have hchannels := fun s d c => @CapturePool.changeSource_tcpBroadcaster d c source s
      (session.target deviceId) session.bitrate platform e.pool session.source
    generalize e.pool.changeSource session.source source (session.target deviceId)
      session.bitrate platform = answer at hchannels ⊢
    obtain ⟨pool, result⟩ := answer
    cases result with
    | error error =>
      refine h.shrinks _ (fun s d c hchannel => ?_) fun _ => .inl ⟨rfl, rfl⟩
      obtain ⟨hkept, -⟩ | ⟨⟨_, hok⟩, -⟩ := hchannels s d c hchannel
      · exact hkept
      · nomatch hok
    | ok channel =>
      refine h.takes rfl rfl (.inr ⟨rfl, session, hlookup⟩) fun s d c hchannel => ?_
      obtain ⟨hkept, hmoved⟩ | ⟨-, hs, htarget, hnew⟩ := hchannels s d c hchannel
      · refine .inl ⟨hkept, fun old hold hs htarget => ?_⟩
        obtain rfl := Option.some.inj (hlookup.symm.trans hold)
        exact ⟨(hmoved ⟨channel, rfl⟩ hs.symm htarget).symm, htarget⟩
      · exact .inr ⟨hs, htarget, hnew.imp_left fun hbefore => ⟨_, hbefore⟩⟩

/-- The encoder of a session starts anew on the channel of the session. -/
theorem Serves.changeBitrate (h : e.Serves) :
    e.Continues (e.changeBitrate deviceId bitrate platform).1
      (.command (.changeBitrate deviceId bitrate) platform) := by
  unfold AudioStreamEngine.changeBitrate
  split
  · exact h.unchanged _
  · next session hlookup =>
    split
    · exact h.unchanged _
    · have hchannels := fun s d c => @CapturePool.changeBitrate_tcpBroadcaster d c session.source s
        (session.target deviceId) bitrate platform e.pool
      generalize e.pool.changeBitrate session.source (session.target deviceId) bitrate platform =
        answer at hchannels ⊢
      obtain ⟨pool, result⟩ := answer
      cases result with
      | error error =>
        refine h.shrinks _ (fun s d c hchannel => ?_) fun _ => .inl ⟨rfl, rfl⟩
        obtain hkept | ⟨⟨_, hok⟩, -⟩ := hchannels s d c hchannel
        · exact hkept
        · nomatch hok
      | ok channel =>
        refine h.takes rfl rfl (.inr ⟨rfl, session, hlookup⟩) fun s d c hchannel => ?_
        obtain hkept | ⟨-, hs, htarget, hnew⟩ := hchannels s d c hchannel
        · refine .inl ⟨hkept, fun old hold hs htarget => ?_⟩
          obtain rfl := Option.some.inj (hlookup.symm.trans hold)
          exact ⟨hs, htarget⟩
        · exact .inr ⟨hs, htarget, .inr hnew⟩

/-- A failed capture or encoder takes the sessions along that have their channel from it. -/
theorem Serves.handleStreamFailure (h : e.Serves) (failure : StreamTaskFailure)
    (order : List DeviceId) (input : EngineInput) :
    e.Continues (e.handleStreamFailure failure order).1 input := by
  cases failure with
  | capture source generation message =>
    unfold AudioStreamEngine.handleStreamFailure
    dsimp only
    obtain ⟨-, heq⟩ | ⟨-, heq⟩ := @CapturePool.evictFailedSource_eq e.pool source generation message
    · rw [heq]
      refine h.shrinks input (fun s d c hchannel => ?_) fun d => ?_
      · rw [failSessions_pool, CapturePool.drop_tcpBroadcaster] at hchannel
        split at hchannel
        · nomatch hchannel
        · exact hchannel
      · dsimp only
        rw [failSessions_lookup, failSessions_generation, failSessions_pool]
        split
        · next hmem =>
          obtain ⟨session, hlookup, hsource⟩ := mem_devicesWith.mp hmem
          refine .inr ⟨rfl, fun s => Option.eq_none_iff_forall_ne_some.mpr fun c hchannel => ?_⟩
          rw [CapturePool.drop_tcpBroadcaster] at hchannel
          split at hchannel
          · nomatch hchannel
          · next hne =>
            obtain ⟨session', hlookup', hsource', -⟩ := h.session s d c hchannel
            obtain rfl := Option.some.inj (hlookup.symm.trans hlookup')
            exact hne (hsource'.symm.trans (of_decide_eq_true hsource))
        · exact .inl ⟨rfl, rfl⟩
    · rw [heq]
      exact h.unchanged input
  | udpEncoder source generation encoderGeneration addr message =>
    unfold AudioStreamEngine.handleStreamFailure
    dsimp only
    obtain ⟨-, i, hlookup, heq⟩ | ⟨-, heq⟩ := @CapturePool.removeFailedTarget_eq e.pool source
      (.udp addr) (.udpEncoder source generation encoderGeneration addr message) rfl
    · rw [heq]
      have hpool : ∀ s d c, (e.pool.put source (i.removeEncoder (.udp addr))).tcpBroadcaster s d =
          some c → e.pool.tcpBroadcaster s d = some c :=
        fun s d c hchannel => (CapturePool.put_removeEncoder_tcpBroadcaster hlookup hchannel).1
      dsimp only
      split
      · next deviceId hfound =>
        refine h.shrinks input hpool fun d => ?_
        dsimp only [failSession, forget]
        rw [Table.lookup_erase_eq, Table.lookup_erase_eq]
        split
        · next hd =>
          obtain ⟨session, hsession, htest⟩ := mem_devicesWith.mp (List.mem_of_head? hfound)
          refine .inr ⟨rfl, fun s => Option.eq_none_iff_forall_ne_some.mpr fun c hchannel => ?_⟩
          obtain ⟨session', hsession', -, htarget⟩ := h.session s d c (hpool s d c hchannel)
          subst hd
          obtain rfl := Option.some.inj (hsession.symm.trans hsession')
          have hnone := (targetOf_eq_tcp htarget).1
          rw [of_decide_eq_true htest] at hnone
          nomatch hnone
        · exact .inl ⟨rfl, rfl⟩
      · exact h.shrinks input hpool fun _ => .inl ⟨rfl, rfl⟩
    · rw [heq]
      exact h.unchanged input
  | tcpEncoder source generation encoderGeneration deviceId message =>
    unfold AudioStreamEngine.handleStreamFailure
    dsimp only
    obtain ⟨hcurrent, i, hlookup, heq⟩ | ⟨-, heq⟩ :=
      @CapturePool.removeFailedTarget_eq e.pool source
      (.tcp deviceId) (.tcpEncoder source generation encoderGeneration deviceId message) rfl
    · rw [heq]
      have hchannels := fun s d c => @CapturePool.put_removeEncoder_tcpBroadcaster d c source s
        (.tcp deviceId) e.pool i hlookup
      refine h.shrinks input (fun s d c hchannel => (hchannels s d c hchannel).1) fun d => ?_
      dsimp only [failSession, forget]
      rw [Table.lookup_erase_eq, Table.lookup_erase_eq]
      split
      · next hd =>
        subst hd
        refine .inr ⟨rfl, fun s => Option.eq_none_iff_forall_ne_some.mpr fun c hchannel => ?_⟩
        obtain ⟨hbefore, hnot⟩ := hchannels s d c hchannel
        obtain ⟨i', encoder, hlookup', -, hencoder, -⟩ := hcurrent
        obtain rfl := Option.some.inj (hlookup.symm.trans hlookup')
        obtain ⟨own, hown, -⟩ := Option.map_eq_some_iff.mp hencoder
        have hfailed : e.pool.tcpBroadcaster source d = some own.audioBroadcastTx := by
          rw [CapturePool.tcpBroadcaster_of_lookup hlookup]
          exact congrArg (Option.map (·.audioBroadcastTx)) hown
        obtain ⟨session, hsession, rfl, -⟩ := h.session s d c hbefore
        obtain ⟨session', hsession', hsource, -⟩ := h.session source d _ hfailed
        obtain rfl := Option.some.inj (hsession.symm.trans hsession')
        exact hnot ⟨hsource, rfl⟩
      · exact .inl ⟨rfl, rfl⟩
    · rw [heq]
      exact h.unchanged input

/-- One round. -/
theorem Serves.step (h : e.Serves) (input : EngineInput) : e.Continues (e.step input).1 input := by
  unfold AudioStreamEngine.step
  split
  · exact h.unchanged input
  · cases input with
    | command command platform =>
      cases command with
      | subscribe => exact h.subscribe
      | unsubscribe => exact h.unsubscribe _
      | changeSource => exact h.changeSource
      | changeBitrate => exact h.changeBitrate
      | getTcpBroadcaster => exact h.unchanged _
      | transportClosed => exact h.transportClosed _
      | shutdown => exact h.stop _
    | closed => exact h.stop _
    | failure failure order => exact h.handleStreamFailure failure order _

end AudioStreamEngine

end Gemacast.Streamer
