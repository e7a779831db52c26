import Gemacast.Core.Seating
import Gemacast.Streamer.Engine
import Gemacast.Streamer.PoolSpec

/-!
# Sessions and encoders agree

Every session of the engine should have its encoder in the pool, and every encoder one
session. Two devices that name one address break this: they share an encoder, and a failed
encoder ends the session of whoever is found first. A run keeps the agreement exactly when
it has neither step.
-/

namespace Gemacast.Streamer

open Gemacast.Core AudioCaptureInstance

/-- A place for an encoder. -/
abbrev Place := AudioSource × TargetId

namespace AudioStreamEngine

variable {e e' : AudioStreamEngine} {deviceId d : DeviceId} {session : StreamSession}
  {source s : AudioSource} {target t : TargetId} {bitrate : Option ℤ} {platform : Platform}
  {order : List DeviceId}

/-- Every session has an encoder on its source for its target with its bitrate, and every
encoder has one session. -/
structure Agrees (e : AudioStreamEngine) : Prop where
  /-- The encoder of a session. -/
  encoder : ∀ deviceId session, e.activePlayerSessions.lookup deviceId = some session →
    ∃ encoder, e.pool.encoderAt session.source (session.target deviceId) = some encoder ∧
      requestedBitrate session.bitrate = .ok encoder.bitrate
  /-- The session of an encoder. -/
  session : ∀ source target, e.pool.encoderAt source target ≠ none →
    ∃! deviceId, ∃ session, e.activePlayerSessions.lookup deviceId = some session ∧
      session.source = source ∧ session.target deviceId = target

/-- Where a device sits, by its session. -/
def seat (e : AudioStreamEngine) (deviceId : DeviceId) :
    Option (Place × Except PoolError AudioBitrate) :=
  (e.activePlayerSessions.lookup deviceId).map fun session =>
    ((session.source, session.target deviceId), requestedBitrate session.bitrate)

/-- The bitrate at a place, by its encoder. -/
def slot (e : AudioStreamEngine) (place : Place) : Option (Except PoolError AudioBitrate) :=
  (e.pool.encoderAt place.1 place.2).map fun encoder => .ok encoder.bitrate

theorem seat_of_lookup (h : e.activePlayerSessions.lookup d = some session) :
    e.seat d = some ((session.source, session.target d), requestedBitrate session.bitrate) := by
  rw [seat, h, Option.map_some]

theorem seat_eq_none : e.seat d = none ↔ e.activePlayerSessions.lookup d = none :=
  Option.map_eq_none_iff

theorem slot_eq_none : e.slot (s, t) = none ↔ e.pool.encoderAt s t = none :=
  Option.map_eq_none_iff

theorem sitsAt_iff : Settled.SitsAt e.seat d (s, t) ↔
    ∃ session, e.activePlayerSessions.lookup d = some session ∧
      session.source = s ∧ session.target d = t := by
  unfold Settled.SitsAt seat
  simp only [Option.map_eq_some_iff, Prod.mk.injEq]
  constructor
  · rintro ⟨_, session, hlookup, ⟨hs, ht⟩, -⟩
    exact ⟨session, hlookup, hs, ht⟩
  · rintro ⟨session, hlookup, hs, ht⟩
    exact ⟨_, session, hlookup, ⟨hs, ht⟩, rfl⟩

theorem sitsAt_of_lookup (h : e.activePlayerSessions.lookup d = some session) :
    Settled.SitsAt e.seat d (session.source, session.target d) :=
  ⟨_, seat_of_lookup h⟩

/-- The agreement is that of the two records of who sits where. -/
theorem agrees_iff : e.Agrees ↔ Settled e.seat e.slot := by
  constructor
  · rintro ⟨hencoder, hsession⟩
    constructor
    · rintro ⟨s, t⟩ b
      constructor
      · intro hb
        have hne : e.pool.encoderAt s t ≠ none := fun hnone => by
          rw [slot_eq_none.mpr hnone] at hb
          nomatch hb
        obtain ⟨d, ⟨session, hlookup, rfl, rfl⟩, -⟩ := hsession s t hne
        obtain ⟨encoder, hplace, hbitrate⟩ := hencoder d session hlookup
        rw [slot, hplace, Option.map_some, ← hbitrate, Option.some_inj] at hb
        exact ⟨d, hb ▸ seat_of_lookup hlookup⟩
      · rintro ⟨d, hd⟩
        obtain ⟨session, hlookup, heq⟩ := Option.map_eq_some_iff.mp hd
        obtain ⟨hplace, rfl⟩ := Prod.mk.inj heq
        obtain ⟨rfl, rfl⟩ := Prod.mk.inj hplace
        obtain ⟨encoder, hplace, hbitrate⟩ := hencoder d session hlookup
        rw [slot, hplace, Option.map_some, hbitrate]
    · rintro d d' ⟨s, t⟩ b b' hd hd'
      obtain ⟨session, hlookup, hs, ht⟩ := sitsAt_iff.mp ⟨b, hd⟩
      obtain ⟨encoder, hplace, -⟩ := hencoder d session hlookup
      have hne : e.pool.encoderAt s t ≠ none := by
        rw [← hs, ← ht, hplace]
        exact Option.some_ne_none _
      exact (hsession s t hne).unique ⟨session, hlookup, hs, ht⟩ (sitsAt_iff.mp ⟨b', hd'⟩)
  · intro h
    constructor
    · intro d session hlookup
      have hslot := (h.slot_iff _ _).mpr ⟨d, seat_of_lookup hlookup⟩
      obtain ⟨encoder, hplace, hbitrate⟩ := Option.map_eq_some_iff.mp hslot
      exact ⟨encoder, hplace, hbitrate.symm⟩
    · intro s t hne
      obtain ⟨d, hd⟩ := h.slot_ne_none_iff.mp (slot_eq_none.not.mpr hne)
      exact ⟨d, sitsAt_iff.mp hd, fun d' hd' => h.holder_inj (sitsAt_iff.mpr hd') hd⟩

/-- Nobody else is sent this source at this address. -/
def Vacant (e : AudioStreamEngine) (deviceId : DeviceId) (source : AudioSource)
    (target : TargetId) : Prop :=
  ∀ other session, other ≠ deviceId → e.activePlayerSessions.lookup other = some session →
    ¬(session.source = source ∧ session.target other = target)

theorem vacant_iff : e.Vacant d source target ↔
    ∀ other, other ≠ d → ¬Settled.SitsAt e.seat other (source, target) := by
  simp only [Vacant, sitsAt_iff]
  constructor
  · rintro h other hne ⟨session, hlookup, hplace⟩
    exact h other session hne hlookup hplace
  · intro h other session hne hlookup hplace
    exact h other hne ⟨session, hlookup, hplace⟩

/-- The session takes this encoder. -/
def Takes (session : Option StreamSession) (deviceId : DeviceId) (source : AudioSource)
    (target : TargetId) : Prop :=
  session.any (fun session => session.source = source ∧ session.target deviceId = target) = true

instance (session : Option StreamSession) (source : AudioSource) (target : TargetId) :
    Decidable (Takes session deviceId source target) :=
  inferInstanceAs (Decidable (_ = true))

theorem takes_iff_sitsAt :
    Takes (e.activePlayerSessions.lookup d) d s t ↔ Settled.SitsAt e.seat d (s, t) := by
  simp [Takes, sitsAt_iff, Option.any_eq_true]

theorem not_takes_none : ¬Takes none d s t := nofun

theorem takes_some : Takes (some session) d s t ↔ session.source = s ∧ session.target d = t := by
  simp [Takes]

variable (session) in
/-- A session moves to a place: the agreement stays exactly if nobody else has it. -/
theorem Agrees.move_iff (h : e.Agrees) {encoder : PerTargetEncoder}
    (hsession : ∀ d, e'.activePlayerSessions.lookup d =
      if d = deviceId then some session else e.activePlayerSessions.lookup d)
    (hbitrate : requestedBitrate session.bitrate = .ok encoder.bitrate)
    (hencoder : ∀ s t, e'.pool.encoderAt s t =
      if s = session.source ∧ t = session.target deviceId then some encoder
      else if Takes (e.activePlayerSessions.lookup deviceId) deviceId s t then none
      else e.pool.encoderAt s t) :
    e'.Agrees ↔ e.Vacant deviceId session.source (session.target deviceId) := by
  rw [agrees_iff, vacant_iff]
  refine (agrees_iff.mp h).take_iff (seat_of_lookup ((hsession deviceId).trans (if_pos rfl)))
    ?_ ?_ ?_ ?_
  · intro d hd
    rw [seat, hsession, if_neg hd, seat]
  · rw [slot, hencoder, if_pos ⟨rfl, rfl⟩, Option.map_some, hbitrate]
  · rintro ⟨s, t⟩ hne hsits
    rw [slot_eq_none, hencoder, if_neg fun heq => hne (Prod.ext heq.1 heq.2),
      if_pos (takes_iff_sitsAt.mpr hsits)]
  · rintro ⟨s, t⟩ hne hsits
    rw [slot, hencoder, if_neg fun heq => hne (Prod.ext heq.1 heq.2),
      if_neg fun htakes => hsits (takes_iff_sitsAt.mp htakes), slot]

variable (e') in
/-- A session leaves and one encoder goes: the agreement stays exactly if the encoder was
that of the session. -/
theorem Agrees.leave_iff (h : e.Agrees) (hlabel : e.pool.encoderAt source target ≠ none)
    (hsession : ∀ d, e'.activePlayerSessions.lookup d =
      if d = deviceId then none else e.activePlayerSessions.lookup d)
    (hencoder : ∀ s t, e'.pool.encoderAt s t =
      if s = source ∧ t = target then none else e.pool.encoderAt s t) :
    e'.Agrees ↔ Settled.SitsAt e.seat deviceId (source, target) := by
  rw [agrees_iff]
  refine (agrees_iff.mp h).leave_iff (slot_eq_none.not.mpr hlabel) ?_ ?_ ?_ ?_
  · exact seat_eq_none.mpr ((hsession deviceId).trans (if_pos rfl))
  · intro d hd
    rw [seat, hsession, if_neg hd, seat]
  · exact slot_eq_none.mpr ((hencoder source target).trans (if_pos ⟨rfl, rfl⟩))
  · rintro ⟨s, t⟩ hne
    rw [slot, hencoder, if_neg fun heq => hne (Prod.ext heq.1 heq.2), slot]

variable (source) in
/-- All sessions of a source leave with its encoders. -/
theorem Agrees.clear (h : e.Agrees)
    (hsession : ∀ d, e'.activePlayerSessions.lookup d =
      (e.activePlayerSessions.lookup d).filter fun session => session.source ≠ source)
    (hencoder : ∀ s t, e'.pool.encoderAt s t =
      if s = source then none else e.pool.encoderAt s t) : e'.Agrees := by
  rw [agrees_iff]
  refine (agrees_iff.mp h).clear (S := fun place => place.1 = source) ?_ ?_ ?_ ?_ ?_
  · rintro d ⟨s, t⟩ rfl hsits
    obtain ⟨session, hlookup, hs, -⟩ := sitsAt_iff.mp hsits
    exact seat_eq_none.mpr (by rw [hsession, hlookup]; simpa using hs)
  · rintro d ⟨s, t⟩ b hs hd
    obtain ⟨session, hlookup, hsource, -⟩ := sitsAt_iff.mp ⟨b, hd⟩
    have hkept : e'.activePlayerSessions.lookup d = some session := by
      rw [hsession, hlookup]
      simpa [hsource] using hs
    rw [seat_of_lookup hkept, ← seat_of_lookup hlookup, hd]
  · intro d hd
    exact seat_eq_none.mpr (by rw [hsession, seat_eq_none.mp hd, Option.filter_none])
  · rintro ⟨s, t⟩ rfl
    exact slot_eq_none.mpr ((hencoder _ t).trans (if_pos rfl))
  · rintro ⟨s, t⟩ hs
    rw [slot, hencoder, if_neg hs, slot]

/-- Agreement depends on the sessions and the encoders alone. -/
theorem Agrees.congr (h : e.Agrees) (hsession : e'.activePlayerSessions = e.activePlayerSessions)
    (hencoder : ∀ s t, e'.pool.encoderAt s t = e.pool.encoderAt s t) : e'.Agrees := by
  obtain ⟨hencoders, hsessions⟩ := h
  constructor
  · simpa only [hsession, hencoder] using hencoders
  · simpa only [hsession, hencoder] using hsessions

/-- A place that is not vacant has an encoder. -/
theorem Agrees.encoderAt_ne_none (h : e.Agrees) (hother : ¬e.Vacant d source target) :
    e.pool.encoderAt source target ≠ none := by
  simp only [Vacant, not_forall, not_not] at hother
  obtain ⟨other, session, -, hlookup, rfl, rfl⟩ := hother
  obtain ⟨encoder, hencoder, -⟩ := h.encoder other session hlookup
  rw [hencoder]
  exact Option.some_ne_none _

/-- A request takes only a vacant place, if it is granted at all. -/
def Yields (e : AudioStreamEngine) (deviceId : DeviceId) (source : AudioSource)
    (target : TargetId) (bitrate : Option ℤ) (platform : Platform) : Prop :=
  Grants (e.pool.encoderAt source target) bitrate platform → e.Vacant deviceId source target

theorem Agrees.yields_of_error (h : e.Agrees) {error : PoolError}
    (hok : e.pool.encoderAt s t ≠ none → ((∃ channel : Option Channel,
      Except.error error = .ok channel) ↔ Grants (e.pool.encoderAt s t) bitrate platform)) :
    e.Yields d s t bitrate platform := by
  intro hgrants
  by_contra hother
  obtain ⟨channel, hchannel⟩ := (hok (h.encoderAt_ne_none hother)).mpr hgrants
  nomatch hchannel

theorem Agrees.yields_iff_vacant (h : e.Agrees) {channel : Option Channel}
    (hok : e.pool.encoderAt s t ≠ none → ((∃ granted : Option Channel,
      (Except.ok channel : Except PoolError _) = .ok granted) ↔
        Grants (e.pool.encoderAt s t) bitrate platform)) :
    e.Yields d s t bitrate platform ↔ e.Vacant d s t := by
  refine ⟨fun hyields => ?_, fun hvacant _ => hvacant⟩
  by_contra hother
  exact hother (hyields ((hok (h.encoderAt_ne_none hother)).mp ⟨channel, rfl⟩))

theorem Agrees.subscribe_iff (h : e.Agrees) {generation : UInt64}
    {targetAddr : Option SocketAddr} {asked : Option AudioSource} :
    (e.subscribe d generation targetAddr asked bitrate platform).1.Agrees ↔
      e.Yields d (e.finalSource d asked) (targetOf targetAddr d) bitrate platform := by
  unfold AudioStreamEngine.subscribe CapturePool.subscribe
  dsimp only
  have hok := @CapturePool.subscribeWithChannel_ok_iff e.pool (e.finalSource d asked)
    (targetOf targetAddr d) (targetOf targetAddr d) bitrate none platform
  have hplaces := (@CapturePool.subscribeWithChannel_subscribed e.pool (e.finalSource d asked)
    (targetOf targetAddr d) bitrate none platform).encoderAt_eq
  generalize e.pool.subscribeWithChannel (e.finalSource d asked) (targetOf targetAddr d) bitrate
    none platform = answer at hok hplaces ⊢
  obtain ⟨pool, result⟩ := answer
  obtain ⟨error, rfl, hsame⟩ | ⟨channel, encoder, rfl, hbitrate, hencoder⟩ := hplaces
  · exact iff_of_true (h.congr rfl hsame) (h.yields_of_error hok)
  · rw [h.yields_iff_vacant hok]
    refine h.move_iff ⟨targetAddr, e.finalSource d asked, bitrate⟩
      (fun _ => Table.lookup_insert_eq) hbitrate fun s t => ?_
    change _ = if s = e.finalSource d asked ∧ t = targetOf targetAddr d then some encoder else _
    cases hold : e.activePlayerSessions.lookup d with
    | none => rw [if_neg not_takes_none]; exact hencoder s t
    | some old =>
      have hsource : old.source = e.finalSource d asked := by
        rw [finalSource, hold]
      simp only [takes_some, hsource, ne_eq, not_true_eq_false, false_or]
      by_cases hmoved : old.target d = targetOf targetAddr d
      · rw [if_neg (not_not.mpr hmoved), hencoder, hmoved]
        by_cases hnew : s = e.finalSource d asked ∧ t = targetOf targetAddr d
        · rw [if_pos hnew, if_pos hnew]
        · rw [if_neg hnew, if_neg hnew, if_neg fun hboth => hnew ⟨hboth.1.symm, hboth.2.symm⟩]
      · rw [if_pos hmoved, CapturePool.unsubscribe_encoderAt, hencoder]
        by_cases hnew : s = e.finalSource d asked ∧ t = targetOf targetAddr d
        · rw [if_neg fun hboth => hmoved (hboth.2.symm.trans hnew.2), if_pos hnew, if_pos hnew]
        · rw [if_neg hnew, if_neg hnew]
          exact if_congr ⟨fun hboth => ⟨hboth.1.symm, hboth.2.symm⟩,
            fun hboth => ⟨hboth.1.symm, hboth.2.symm⟩⟩ rfl rfl

theorem Agrees.changeSource_iff (h : e.Agrees) :
    (e.changeSource d source platform).1.Agrees ↔
      ∀ session, e.activePlayerSessions.lookup d = some session →
        e.Yields d source (session.target d) session.bitrate platform := by
  unfold AudioStreamEngine.changeSource
  cases hold : e.activePlayerSessions.lookup d with
  | none => exact iff_of_true h fun _ hsession => nomatch hsession
  | some old =>
    dsimp only
    have hok := @CapturePool.changeSource_ok_iff e.pool source (old.target d) (old.target d)
      old.bitrate platform old.source
    have hplaces := @CapturePool.changeSource_encoderAt e.pool source (old.target d) old.bitrate
      platform old.source
    generalize e.pool.changeSource old.source source (old.target d) old.bitrate platform = answer
      at hok hplaces ⊢
    obtain ⟨pool, result⟩ := answer
    simp only [Option.some.injEq, forall_eq']
    obtain ⟨error, rfl, hsame⟩ | ⟨channel, encoder, rfl, hbitrate, hencoder⟩ := hplaces
    · exact iff_of_true (h.congr rfl hsame) (h.yields_of_error hok)
    · rw [h.yields_iff_vacant hok]
      refine h.move_iff ⟨old.targetAddr, source, old.bitrate⟩
        (fun _ => Table.lookup_insert_eq) hbitrate fun s t => (hencoder s t).trans ?_
      refine if_congr Iff.rfl rfl (if_congr ?_ rfl rfl)
      rw [hold, takes_some, eq_comm, @eq_comm _ t]

/-- A running session has its place to itself. -/
theorem Agrees.vacant (h : e.Agrees) (hlookup : e.activePlayerSessions.lookup d = some session) :
    e.Vacant d session.source (session.target d) := by
  rw [vacant_iff]
  intro other hne hsits
  exact hne ((agrees_iff.mp h).holder_inj hsits (sitsAt_of_lookup hlookup))

theorem Agrees.changeBitrate (h : e.Agrees) : (e.changeBitrate d bitrate platform).1.Agrees := by
  unfold AudioStreamEngine.changeBitrate
  cases hold : e.activePlayerSessions.lookup d with
  | none => exact h
  | some old =>
    dsimp only
    split
    · exact h
    · have hplaces := (@CapturePool.changeBitrate_restarted e.pool old.source (old.target d) bitrate
        platform).encoderAt_eq
      generalize e.pool.changeBitrate old.source (old.target d) bitrate platform = answer
        at hplaces ⊢
      obtain ⟨error, rfl⟩ | ⟨channel, encoder, hchannel, hbitrate, hencoder⟩ := hplaces
      · exact h
      · obtain ⟨pool, result⟩ := answer
        obtain rfl : result = .ok channel := hchannel
        have hvacant := h.vacant hold
        refine (h.move_iff ⟨old.targetAddr, old.source, bitrate⟩
          (fun _ => Table.lookup_insert_eq) hbitrate fun s t => (hencoder s t).trans ?_).mpr hvacant
        change _ = if s = old.source ∧ t = old.target d then some encoder else _
        by_cases hown : s = old.source ∧ t = old.target d
        · rw [if_pos hown, if_pos hown]
        · rw [if_neg hown, if_neg hown, hold,
            if_neg fun htakes => hown ((takes_some.mp htakes).imp Eq.symm Eq.symm)]

/-- A session that ends takes its encoder along. -/
theorem Agrees.unsubscribed (h : e.Agrees)
    (hlookup : e.activePlayerSessions.lookup d = some session) :
    Agrees { e.forget d with
      pool := e.pool.unsubscribe session.source (session.target d) } := by
  obtain ⟨encoder, hencoder, -⟩ := h.encoder d session hlookup
  have hlabel : e.pool.encoderAt session.source (session.target d) ≠ none := by
    rw [hencoder]
    exact Option.some_ne_none _
  exact (h.leave_iff _ hlabel (fun _ => Table.lookup_erase_eq)
    fun _ _ => CapturePool.unsubscribe_encoderAt).mpr (sitsAt_of_lookup hlookup)

theorem Agrees.unsubscribe (h : e.Agrees) : (e.unsubscribe d).1.Agrees := by
  unfold AudioStreamEngine.unsubscribe
  cases hlookup : e.activePlayerSessions.lookup d with
  | none => exact h
  | some session => exact h.unsubscribed hlookup

theorem Agrees.transportClosed (h : e.Agrees) (generation : UInt64) :
    (e.transportClosed d generation).1.Agrees := by
  unfold AudioStreamEngine.transportClosed
  split
  · exact h
  · cases hlookup : e.activePlayerSessions.lookup d with
    | none => exact h
    | some session => exact h.unsubscribed hlookup

theorem agrees_stop : e.stop.Agrees := by
  constructor
  · intro d session hlookup
    nomatch hlookup
  · intro s t hencoder
    exact absurd rfl hencoder

/-- A failed capture takes all its sessions along. -/
theorem Agrees.captureFailed (h : e.Agrees) (generation : UInt64) (message : String) :
    (e.handleStreamFailure (.capture source generation message) order).1.Agrees := by
  unfold handleStreamFailure
  obtain ⟨-, heq⟩ | ⟨-, heq⟩ :=
    @CapturePool.evictFailedSource_eq e.pool source generation message
  · simp only [heq]
    refine h.clear source (fun d => ?_) fun s t => ?_
    · rw [failSessions_lookup]
      cases hlookup : e.activePlayerSessions.lookup d with
      | none => simp
      | some session =>
        by_cases hs : session.source = source <;>
          simp [mem_devicesWith, hlookup, hs, Option.filter]
    · rw [failSessions_pool, CapturePool.drop_encoderAt]
  · simp only [heq]
    exact h

/-- The session a failed UDP encoder ends is the first one found with the address. -/
def EndsOwn (e : AudioStreamEngine) (failure : StreamTaskFailure) (order : List DeviceId) : Prop :=
  ∀ source addr, failure.place = some (source, .udp addr) → e.pool.IsCurrent failure →
    ∀ d session, (e.devicesWith order fun session => session.targetAddr = some addr).head? =
      some d → e.activePlayerSessions.lookup d = some session → session.source = source

theorem isCurrent_encoderAt {p : CapturePool} {failure : StreamTaskFailure}
    (hplace : failure.place = some (source, target)) (h : p.IsCurrent failure) :
    p.encoderAt source target ≠ none := by
  cases failure with
  | capture => nomatch hplace
  | udpEncoder =>
    obtain ⟨rfl, rfl⟩ := Prod.mk.inj (Option.some.inj hplace)
    obtain ⟨i, encoder, hlookup, -, hencoder, -⟩ := h
    rw [CapturePool.encoderAt_of_lookup hlookup, hencoder]
    exact Option.some_ne_none _
  | tcpEncoder =>
    obtain ⟨rfl, rfl⟩ := Prod.mk.inj (Option.some.inj hplace)
    obtain ⟨i, encoder, hlookup, -, hencoder, -⟩ := h
    rw [CapturePool.encoderAt_of_lookup hlookup, hencoder]
    exact Option.some_ne_none _

theorem target_eq_udp {addr : SocketAddr} :
    session.target d = .udp addr ↔ session.targetAddr = some addr := by
  unfold StreamSession.target targetOf
  cases session.targetAddr <;> simp

theorem target_eq_tcp {other : DeviceId} :
    session.target d = .tcp other ↔ session.targetAddr = none ∧ d = other := by
  unfold StreamSession.target targetOf
  cases session.targetAddr <;> simp

theorem Agrees.udpEncoderFailed_iff (h : e.Agrees) {generation encoderGeneration : UInt64}
    {addr : SocketAddr} {message : String} :
    (e.handleStreamFailure (.udpEncoder source generation encoderGeneration addr message)
        order).1.Agrees ↔
      e.EndsOwn (.udpEncoder source generation encoderGeneration addr message) order := by
  generalize hfailure : StreamTaskFailure.udpEncoder source generation encoderGeneration addr
    message = failure
  have hplace : failure.place = some (source, .udp addr) := by rw [← hfailure]; rfl
  obtain ⟨hcurrent, i, hlookup, heq⟩ | ⟨hstale, heq⟩ :=
    CapturePool.removeFailedTarget_eq (p := e.pool) hplace
  · obtain ⟨owner, howner⟩ := (agrees_iff.mp h).slot_ne_none_iff.mp
      (slot_eq_none.not.mpr (isCurrent_encoderAt hplace hcurrent))
    obtain ⟨own, hown, hsource, htarget⟩ := sitsAt_iff.mp howner
    have hmem : owner ∈ e.devicesWith order fun session => session.targetAddr = some addr :=
      mem_devicesWith.mpr ⟨own, hown, decide_eq_true (target_eq_udp.mp htarget)⟩
    obtain ⟨first, hfirst⟩ : ∃ first, (e.devicesWith order fun session =>
        session.targetAddr = some addr).head? = some first :=
      Option.isSome_iff_exists.mp (List.isSome_head?.mpr (List.ne_nil_of_mem hmem))
    obtain ⟨found, hfound, haddr⟩ := mem_devicesWith.mp (List.mem_of_mem_head? hfirst)
    have hleft := h.leave_iff { e.forget first with
        pool := e.pool.put source (i.removeEncoder (.udp addr)) }
      (isCurrent_encoderAt hplace hcurrent) (fun _ => Table.lookup_erase_eq)
      (fun _ _ => CapturePool.removeFailed_encoderAt hlookup)
    subst hfailure
    unfold handleStreamFailure
    simp only [heq, hfirst]
    refine hleft.trans ?_
    rw [sitsAt_iff]
    constructor
    · rintro ⟨session, hsession, hs, -⟩ s a hsa - d session' hd hsession'
      obtain ⟨rfl, ha⟩ := Prod.mk.inj (Option.some.inj hsa)
      obtain rfl := TargetId.udp.inj ha
      obtain rfl := Option.some.inj (hfirst.symm.trans hd)
      obtain rfl := Option.some.inj (hsession.symm.trans hsession')
      exact hs
    · intro hends
      exact ⟨found, hfound, hends source addr rfl hcurrent first found hfirst hfound,
        target_eq_udp.mpr (of_decide_eq_true haddr)⟩
  · subst hfailure
    unfold handleStreamFailure
    simp only [heq]
    exact iff_of_true h fun _ _ hsa hcurrent =>
      absurd hcurrent hstale

theorem Agrees.tcpEncoderFailed (h : e.Agrees) (generation encoderGeneration : UInt64)
    (message : String) :
    (e.handleStreamFailure (.tcpEncoder source generation encoderGeneration d message)
      order).1.Agrees := by
  generalize hfailure : StreamTaskFailure.tcpEncoder source generation encoderGeneration d
    message = failure
  have hplace : failure.place = some (source, .tcp d) := by rw [← hfailure]; rfl
  obtain ⟨hcurrent, i, hlookup, heq⟩ | ⟨hstale, heq⟩ :=
    CapturePool.removeFailedTarget_eq (p := e.pool) hplace
  · have hlabel := isCurrent_encoderAt hplace hcurrent
    obtain ⟨owner, howner⟩ := (agrees_iff.mp h).slot_ne_none_iff.mp (slot_eq_none.not.mpr hlabel)
    obtain ⟨own, hown, hsource, htarget⟩ := sitsAt_iff.mp howner
    obtain ⟨-, rfl⟩ := target_eq_tcp.mp htarget
    subst hfailure
    unfold handleStreamFailure
    simp only [heq]
    exact (h.leave_iff _ hlabel (fun _ => Table.lookup_erase_eq)
      fun _ _ => CapturePool.removeFailed_encoderAt hlookup).mpr howner
  · subst hfailure
    unfold handleStreamFailure
    simp only [heq]
    exact h

/-- The step lets nobody share or lose an encoder. -/
def Exclusive (e : AudioStreamEngine) (input : EngineInput) : Prop :=
  e.stopped = false →
    match input with
    | .command (.subscribe deviceId _ targetAddr source bitrate) platform =>
      e.Yields deviceId (e.finalSource deviceId source) (targetOf targetAddr deviceId) bitrate
        platform
    | .command (.changeSource deviceId source) platform =>
      ∀ session, e.activePlayerSessions.lookup deviceId = some session →
        e.Yields deviceId source (session.target deviceId) session.bitrate platform
    | .failure failure order => e.EndsOwn failure order
    | _ => True

/-- One round keeps the agreement exactly if it is exclusive. -/
theorem Agrees.step_iff (h : e.Agrees) (input : EngineInput) :
    (e.step input).1.Agrees ↔ e.Exclusive input := by
  unfold step Exclusive
  cases hstopped : e.stopped with
  | true => exact iff_of_true h nofun
  | false =>
    simp only [Bool.false_eq_true, if_false, forall_const]
    cases input with
    | command command platform =>
      cases command with
      | subscribe => exact h.subscribe_iff
      | unsubscribe => exact iff_of_true h.unsubscribe trivial
      | changeSource => exact h.changeSource_iff
      | changeBitrate => exact iff_of_true h.changeBitrate trivial
      | getTcpBroadcaster => exact iff_of_true h trivial
      | transportClosed _ generation => exact iff_of_true (h.transportClosed generation) trivial
      | shutdown => exact iff_of_true agrees_stop trivial
    | closed => exact iff_of_true agrees_stop trivial
    | failure failure order =>
      cases failure with
      | capture _ generation message =>
        exact iff_of_true (h.captureFailed generation message) fun _ _ hplace => nomatch hplace
      | udpEncoder => exact h.udpEncoderFailed_iff
      | tcpEncoder _ generation encoderGeneration _ message =>
        refine iff_of_true (h.tcpEncoderFailed generation encoderGeneration message) ?_
        intro _ _ hplace
        exact nomatch (Prod.mk.inj (Option.some.inj hplace)).2

theorem agrees_new (supportsProcessCapture sessionFailureTx : Bool) :
    (new supportsProcessCapture sessionFailureTx).Agrees := by
  constructor
  · intro d session hlookup
    nomatch hlookup
  · intro s t hencoder
    exact absurd rfl hencoder

/-- In every run of the engine sessions and encoders agree after every round exactly if
every round is exclusive. -/
theorem agreement_iff (supportsProcessCapture sessionFailureTx : Bool)
    (inputs : List EngineInput) :
    (∀ e ∈ (machine supportsProcessCapture sessionFailureTx).events inputs, e.after.Agrees) ↔
      ∀ e ∈ (machine supportsProcessCapture sessionFailureTx).events inputs,
        e.before.Exclusive e.input :=
  (machine supportsProcessCapture sessionFailureTx).invariant_iff (fun _ input h => h.step_iff input)
    (agrees_new supportsProcessCapture sessionFailureTx) inputs

/-- A platform that grants everything. -/
def grantingPlatform : Platform := ⟨.ok (), true, 0⟩

/-- Two phones that reach the streamer from one address. -/
def sharedAddress : List EngineInput :=
  [.command (.subscribe "phone" 1 (some ⟨.v4 3232235786, 23556⟩) none none) grantingPlatform,
    .command (.subscribe "tablet" 2 (some ⟨.v4 3232235786, 23556⟩) none none) grantingPlatform]

theorem not_agreement :
    ¬∀ e ∈ (machine false true).events sharedAddress, e.after.Agrees := by
  intro h
  have hafter := h _ (List.mem_cons_of_mem _ List.mem_cons_self)
  obtain ⟨owner, -, hunique⟩ :=
    hafter.session .desktop (.udp ⟨.v4 3232235786, 23556⟩) (by decide +kernel)
  have hphone := hunique "phone" ⟨_, rfl, rfl, rfl⟩
  have htablet := hunique "tablet" ⟨_, rfl, rfl, rfl⟩
  exact absurd (hphone.trans htablet.symm) (by decide)

end AudioStreamEngine

end Gemacast.Streamer
