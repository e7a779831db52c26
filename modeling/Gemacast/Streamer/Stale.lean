import Mathlib.Algebra.GroupWithZero.Nat
import Mathlib.Logic.Function.Iterate
import Gemacast.Streamer.Engine
import Gemacast.Streamer.Numbers

/-!
# Stale failures are inert

Failures and closed transports are reported on channels of their own and can arrive when
their capture, encoder or session is gone. Every handler compares the numbers, so such an
event changes nothing as long as no number is given out twice, and every session is
reported at most once.
-/

namespace Gemacast.Streamer

open Gemacast.Core

/-- The session a subscription starts. -/
def EngineInput.subscription : EngineInput → Option (DeviceId × UInt64)
  | .command (.subscribe deviceId generation _ _ _) _ => some (deviceId, generation)
  | _ => none

/-- The sessions started, in order. -/
def subscriptions (inputs : List EngineInput) : List (DeviceId × UInt64) :=
  inputs.filterMap EngineInput.subscription

namespace AudioStreamEngine

variable {e : AudioStreamEngine} {input : EngineInput} {deviceId d : DeviceId}
  {generation g : UInt64} {source : AudioSource} {bitrate : Option ℤ} {platform : Platform}
  {targetAddr : Option SocketAddr} {order devices : List DeviceId} {message : String}
  {failure : StreamTaskFailure} {r : StreamSessionFailure}

/-- The task or the session of an event is not replaced. -/
def IsCurrent (e : AudioStreamEngine) : EngineInput → Prop
  | .command (.transportClosed deviceId generation) _ =>
    e.sessionGenerations.lookup deviceId = some generation
  | .failure failure _ => e.pool.IsCurrent failure
  | _ => True

/-- An event of a task or session that is gone changes nothing and says nothing. -/
theorem step_of_not_isCurrent (h : ¬e.IsCurrent input) : e.step input = (e, {}) := by
  unfold step
  split
  · rfl
  · cases input with
    | command command platform =>
      cases command with
      | transportClosed deviceId generation => exact if_pos h
      | subscribe => exact absurd trivial h
      | unsubscribe => exact absurd trivial h
      | changeSource => exact absurd trivial h
      | changeBitrate => exact absurd trivial h
      | getTcpBroadcaster => exact absurd trivial h
      | shutdown => exact absurd trivial h
    | closed => exact absurd trivial h
    | failure failure order =>
      dsimp only
      unfold handleStreamFailure
      cases failure with
      | capture source generation message =>
        have hstale : ¬e.pool.IsCurrent (.capture source generation message) := h
        simp only [CapturePool.evictFailedSource_of_stale hstale]
      | udpEncoder source generation encoderGeneration target message =>
        have hstale : ¬e.pool.IsCurrent
          (.udpEncoder source generation encoderGeneration target message) := h
        simp only [CapturePool.removeFailedTarget_of_stale hstale]
      | tcpEncoder source generation encoderGeneration deviceId message =>
        have hstale : ¬e.pool.IsCurrent
          (.tcpEncoder source generation encoderGeneration deviceId message) := h
        simp only [CapturePool.removeFailedTarget_of_stale hstale]

theorem subscribe_grows (h : e.pool.HasNumbers) (asked : Option AudioSource) :
    e.pool.Grows (e.subscribe d g targetAddr asked bitrate platform).1.pool := by
  unfold subscribe CapturePool.subscribe
  dsimp only
  have hgrows := (@CapturePool.subscribeWithChannel_subscribed e.pool (e.finalSource d asked)
    (targetOf targetAddr d) bitrate none platform).grows h
  generalize e.pool.subscribeWithChannel (e.finalSource d asked) (targetOf targetAddr d) bitrate
    none platform = answer at hgrows ⊢
  obtain ⟨pool, result⟩ := answer
  cases result with
  | error error => exact hgrows
  | ok channel =>
    cases e.activePlayerSessions.lookup d with
    | none => exact hgrows
    | some oldSession =>
      dsimp only
      split
      · exact hgrows.trans CapturePool.grows_unsubscribe
      · exact hgrows

theorem changeSource_grows (h : e.pool.HasNumbers) :
    e.pool.Grows (e.changeSource d source platform).1.pool := by
  unfold changeSource
  cases e.activePlayerSessions.lookup d with
  | none => exact .refl _
  | some session =>
    dsimp only
    have hgrows := @CapturePool.grows_changeSource e.pool source (session.target d)
      session.bitrate platform h session.source
    generalize e.pool.changeSource session.source source (session.target d) session.bitrate
      platform = answer at hgrows ⊢
    obtain ⟨pool, result⟩ := answer
    cases result <;> exact hgrows

theorem changeBitrate_grows (h : e.pool.HasNumbers) :
    e.pool.Grows (e.changeBitrate d bitrate platform).1.pool := by
  unfold changeBitrate
  cases e.activePlayerSessions.lookup d with
  | none => exact .refl _
  | some session =>
    dsimp only
    split
    · exact .refl _
    · have hgrows := @CapturePool.grows_changeBitrate e.pool session.source (session.target d)
        bitrate platform h
      generalize e.pool.changeBitrate session.source (session.target d) bitrate platform = answer
        at hgrows ⊢
      obtain ⟨pool, result⟩ := answer
      cases result <;> exact hgrows

theorem handleStreamFailure_grows (failure : StreamTaskFailure) (order : List DeviceId) :
    e.pool.Grows (e.handleStreamFailure failure order).1.pool := by
  unfold handleStreamFailure
  cases failure with
  | capture source generation message =>
    dsimp only
    have hgrows := @CapturePool.grows_evictFailedSource e.pool source generation
    generalize e.pool.evictFailedSource source generation = answer at hgrows ⊢
    obtain ⟨pool, current⟩ := answer
    cases current with
    | false => exact hgrows
    | true => simpa only [failSessions_pool] using hgrows
  | udpEncoder source generation encoderGeneration target message =>
    dsimp only
    have hgrows := CapturePool.grows_removeFailedTarget (p := e.pool)
      (.udpEncoder source generation encoderGeneration target message)
    generalize e.pool.removeFailedTarget _ = answer at hgrows ⊢
    obtain ⟨pool, current⟩ := answer
    cases current with
    | false => exact hgrows
    | true =>
      dsimp only
      split <;> exact hgrows
  | tcpEncoder source generation encoderGeneration deviceId message =>
    dsimp only
    have hgrows := CapturePool.grows_removeFailedTarget (p := e.pool)
      (.tcpEncoder source generation encoderGeneration deviceId message)
    generalize e.pool.removeFailedTarget _ = answer at hgrows ⊢
    obtain ⟨pool, current⟩ := answer
    cases current <;> exact hgrows

/-- One round lets the pool grow only. -/
theorem step_grows (h : e.pool.HasNumbers) (input : EngineInput) :
    e.pool.Grows (e.step input).1.pool := by
  unfold step
  split
  · exact .refl _
  · cases input with
    | command command platform =>
      cases command with
      | subscribe _ _ _ asked => exact subscribe_grows h asked
      | unsubscribe deviceId =>
        dsimp only
        unfold unsubscribe
        split
        · exact .refl _
        · exact CapturePool.grows_unsubscribe
      | changeSource => exact changeSource_grows h
      | changeBitrate => exact changeBitrate_grows h
      | getTcpBroadcaster => exact .refl _
      | transportClosed deviceId generation =>
        dsimp only
        unfold transportClosed
        split
        · exact .refl _
        · split
          · exact .refl _
          · exact CapturePool.grows_unsubscribe
      | shutdown => exact CapturePool.grows_shutdownAll
    | closed => exact CapturePool.grows_shutdownAll
    | failure failure order => exact handleStreamFailure_grows failure order

/-- What a round does to the numbers of the sessions: it starts no session but the one
subscribed, and what it reports runs before it and not after it. -/
structure Accounts (e e' : AudioStreamEngine) (output : EngineOutput)
    (subscription : Option (DeviceId × UInt64)) : Prop where
  started : ∀ d g, e'.sessionGenerations.lookup d = some g →
    e.sessionGenerations.lookup d = some g ∨ subscription = some (d, g)
  ended : ∀ r ∈ output.reported, e.sessionGenerations.lookup r.deviceId = some r.generation ∧
    e'.sessionGenerations.lookup r.deviceId = none
  nodup : output.reported.Nodup

variable {e' : AudioStreamEngine} {output : EngineOutput}
  {subscription : Option (DeviceId × UInt64)}

theorem Accounts.quiet (hsame : e'.sessionGenerations = e.sessionGenerations)
    (hreported : output.reported = []) : e.Accounts e' output subscription := by
  refine ⟨fun d g hg => .inl (hsame ▸ hg), fun r hr => ?_, hreported ▸ List.nodup_nil⟩
  rw [hreported] at hr
  nomatch hr

theorem Accounts.of_pool {pool : CapturePool}
    (h : { e with pool }.Accounts e' output subscription) : e.Accounts e' output subscription :=
  ⟨h.started, h.ended, h.nodup⟩

/-- A session is forgotten, and reported if it had a number. -/
theorem Accounts.forgets (hafter : e'.sessionGenerations = e.sessionGenerations.erase d)
    (hreported : output.reported = [] ∨ ∃ g, e.sessionGenerations.lookup d = some g ∧
      output.reported = e.reportSessionFailure d g) : e.Accounts e' output subscription := by
  refine ⟨fun d' g' hg' => ?_, fun r hr => ?_, ?_⟩
  · rw [hafter, Table.lookup_erase_eq] at hg'
    split at hg'
    · nomatch hg'
    · exact .inl hg'
  · obtain hnone | ⟨g, hg, hreport⟩ := hreported
    · rw [hnone] at hr
      nomatch hr
    · rw [hreport, reportSessionFailure] at hr
      split at hr
      · obtain rfl := List.mem_singleton.mp hr
        exact ⟨hg, by rw [hafter, Table.lookup_erase_eq, if_pos rfl]⟩
      · nomatch hr
  · obtain hnone | ⟨g, -, hreport⟩ := hreported
    · exact hnone ▸ List.nodup_nil
    · rw [hreport, reportSessionFailure]
      split <;> simp

theorem failSession_accounts (message : String) :
    e.Accounts (e.failSession d message).1 (e.failSession d message).2 subscription := by
  unfold failSession
  cases hg : e.sessionGenerations.lookup d with
  | some g => exact .forgets rfl (.inr ⟨g, hg, rfl⟩)
  | none => exact .forgets rfl (.inl rfl)

/-- Two changes after one another, neither of which subscribes. -/
theorem Accounts.append {e'' : AudioStreamEngine} {output' : EngineOutput}
    {notified : List (DeviceId × String)} (h : e.Accounts e' output none)
    (h' : e'.Accounts e'' output' none) :
    e.Accounts e''
      { notified, reported := output.reported ++ output'.reported } none := by
  have hback {d : DeviceId} {g : UInt64} (hg : e''.sessionGenerations.lookup d = some g) :
      e'.sessionGenerations.lookup d = some g := (h'.started d g hg).resolve_right nofun
  have hback' {d : DeviceId} {g : UInt64} (hg : e'.sessionGenerations.lookup d = some g) :
      e.sessionGenerations.lookup d = some g := (h.started d g hg).resolve_right nofun
  refine ⟨fun d g hg => .inl (hback' (hback hg)), fun r hr => ?_, ?_⟩
  · obtain hr | hr := List.mem_append.mp hr
    · obtain ⟨hbefore, hafter⟩ := h.ended r hr
      refine ⟨hbefore, Option.eq_none_iff_forall_ne_some.mpr fun g hg => ?_⟩
      nomatch hafter.symm.trans (hback hg)
    · obtain ⟨hbefore, hafter⟩ := h'.ended r hr
      exact ⟨hback' hbefore, hafter⟩
  · refine List.nodup_append.mpr ⟨h.nodup, h'.nodup, fun r hr r' hr' heq => ?_⟩
    have hgone := (h.ended r hr).2
    rw [heq, (h'.ended r' hr').1] at hgone
    nomatch hgone

theorem failSessions_accounts (message : String) (devices : List DeviceId) :
    e.Accounts (e.failSessions message devices).1 (e.failSessions message devices).2 none := by
  induction devices generalizing e with
  | nil => exact .quiet rfl rfl
  | cons deviceId rest ih => exact (failSession_accounts message).append ih

theorem subscribe_accounts (asked : Option AudioSource) :
    e.Accounts (e.subscribe d g targetAddr asked bitrate platform).1
      (e.subscribe d g targetAddr asked bitrate platform).2 (some (d, g)) := by
  unfold subscribe
  dsimp only
  generalize e.pool.subscribe _ _ _ _ = answer
  obtain ⟨pool, result⟩ := answer
  cases result with
  | error error => exact .quiet rfl rfl
  | ok channel =>
    refine ⟨fun d' g' hg' => ?_, fun r hr => (nomatch hr), List.nodup_nil⟩
    dsimp only at hg'
    rw [Table.lookup_insert_eq] at hg'
    split at hg'
    · rename_i hd
      obtain rfl := Option.some.inj hg'
      exact .inr (by rw [hd])
    · exact .inl hg'

theorem handleStreamFailure_accounts (failure : StreamTaskFailure) (order : List DeviceId) :
    e.Accounts (e.handleStreamFailure failure order).1 (e.handleStreamFailure failure order).2
      none := by
  unfold handleStreamFailure
  cases failure with
  | capture source generation message =>
    dsimp only
    obtain ⟨pool, current⟩ := e.pool.evictFailedSource source generation
    cases current with
    | false => exact .quiet rfl rfl
    | true => exact (failSessions_accounts _ _).of_pool
  | udpEncoder source generation encoderGeneration target message =>
    dsimp only
    obtain ⟨pool, current⟩ := e.pool.removeFailedTarget _
    cases current with
    | false => exact .quiet rfl rfl
    | true =>
      dsimp only
      split
      · exact (failSession_accounts _).of_pool
      · exact .quiet rfl rfl
  | tcpEncoder source generation encoderGeneration deviceId message =>
    dsimp only
    obtain ⟨pool, current⟩ := e.pool.removeFailedTarget _
    cases current with
    | false => exact .quiet rfl rfl
    | true => exact (failSession_accounts _).of_pool

theorem step_accounts (input : EngineInput) :
    e.Accounts (e.step input).1 (e.step input).2 input.subscription := by
  have hstop {output : EngineOutput} (hreported : output.reported = []) :
      e.Accounts e.stop output none := by
    refine ⟨fun d g hg => (nomatch hg), fun r hr => ?_, hreported ▸ List.nodup_nil⟩
    rw [hreported] at hr
    nomatch hr
  unfold step
  split
  · exact .quiet rfl rfl
  · cases input with
    | command command platform =>
      cases command with
      | subscribe _ _ _ asked => exact subscribe_accounts asked
      | unsubscribe deviceId =>
        dsimp only
        unfold unsubscribe
        split
        · exact .quiet rfl rfl
        · exact .forgets rfl (.inl rfl)
      | changeSource deviceId source =>
        dsimp only
        unfold changeSource
        split
        · exact .quiet rfl rfl
        · split <;> exact .quiet rfl rfl
      | changeBitrate deviceId bitrate =>
        dsimp only
        unfold changeBitrate
        split
        · exact .quiet rfl rfl
        · split
          · exact .quiet rfl rfl
          · split <;> exact .quiet rfl rfl
      | getTcpBroadcaster => exact .quiet rfl rfl
      | transportClosed deviceId generation =>
        dsimp only
        unfold transportClosed
        split
        · exact .quiet rfl rfl
        · rename_i hgeneration
          split
          · exact .quiet rfl rfl
          · exact .forgets rfl (.inr ⟨generation, not_not.mp hgeneration, rfl⟩)
      | shutdown => exact hstop rfl
    | closed => exact hstop rfl
    | failure failure order => exact handleStreamFailure_accounts failure order

variable {supportsProcessCapture sessionFailureTx : Bool} {inputs : List EngineInput}

/-- The sessions of a run are those it started with and those subscribed. -/
theorem runFrom_generation (h : ((machine supportsProcessCapture sessionFailureTx).runFrom e
      inputs).sessionGenerations.lookup d = some g) :
    e.sessionGenerations.lookup d = some g ∨ (d, g) ∈ subscriptions inputs := by
  induction inputs generalizing e with
  | nil => exact .inl h
  | cons input inputs ih =>
    have hstep := step_accounts (e := e) input
    obtain hnext | hlater := ih h
    · obtain hnow | hsubscribed := hstep.started d g hnext
      · exact .inl hnow
      · exact .inr (List.mem_filterMap.mpr ⟨input, List.mem_cons_self, hsubscribed⟩)
    · obtain ⟨later, hmem, hsubscribed⟩ := List.mem_filterMap.mp hlater
      exact .inr (List.mem_filterMap.mpr ⟨later, List.mem_cons_of_mem _ hmem, hsubscribed⟩)

/-- Everything the engine reports in a run. -/
def reports (events : List (Event AudioStreamEngine EngineInput EngineOutput)) :
    List StreamSessionFailure :=
  events.flatMap fun event => event.output.reported

theorem subscriptions_cons (input : EngineInput) (inputs : List EngineInput) :
    subscriptions (input :: inputs) = input.subscription.toList ++ subscriptions inputs := by
  unfold subscriptions
  rw [List.filterMap_cons]
  cases input.subscription <;> rfl

/-- A session that is not subscribed twice is reported at most once. -/
theorem reports_nodup (hsubscribed : (subscriptions inputs).Nodup)
    (hfresh : ∀ d g, e.sessionGenerations.lookup d = some g → (d, g) ∉ subscriptions inputs) :
    (∀ r ∈ reports ((machine supportsProcessCapture sessionFailureTx).eventsFrom e inputs),
        e.sessionGenerations.lookup r.deviceId = some r.generation ∨
          (r.deviceId, r.generation) ∈ subscriptions inputs) ∧
      (reports ((machine supportsProcessCapture sessionFailureTx).eventsFrom e inputs)).Nodup := by
  induction inputs generalizing e with
  | nil => exact ⟨nofun, List.nodup_nil⟩
  | cons input inputs ih =>
    have hstep := step_accounts (e := e) input
    rw [subscriptions_cons] at hsubscribed hfresh
    obtain ⟨-, hrest, hdisjoint⟩ := List.nodup_append.mp hsubscribed
    have hstarted {d : DeviceId} {g : UInt64}
        (hg : (e.step input).1.sessionGenerations.lookup d = some g) :
        e.sessionGenerations.lookup d = some g ∨ (d, g) ∈ input.subscription.toList :=
      (hstep.started d g hg).imp_right Option.mem_toList.mpr
    obtain ⟨hlater, hnodup⟩ := ih (e := (e.step input).1) hrest fun d g hg hmem => by
      obtain hnow | hsub := hstarted hg
      · exact hfresh d g hnow (List.mem_append_right _ hmem)
      · exact hdisjoint _ hsub _ hmem rfl
    rw [subscriptions_cons]
    refine ⟨fun r hr => ?_, List.nodup_append.mpr ⟨hstep.nodup, hnodup, fun r hr r' hr' heq => ?_⟩⟩
    · obtain hr | hr := List.mem_append.mp hr
      · exact .inl (hstep.ended r hr).1
      · obtain hnext | hmem := hlater r hr
        · exact (hstarted hnext).imp_right (List.mem_append_left _)
        · exact .inr (List.mem_append_right _ hmem)
    · subst heq
      obtain ⟨hbefore, hafter⟩ := hstep.ended r hr
      obtain hnext | hmem := hlater r hr'
      · nomatch hafter.symm.trans hnext
      · exact hfresh _ _ hbefore (List.mem_append_right _ hmem)

theorem run_numbered (hnumbers : ∀ event ∈ (machine supportsProcessCapture
      sessionFailureTx).events inputs, event.before.pool.HasNumbers) :
    ((machine supportsProcessCapture sessionFailureTx).run inputs).pool.Numbered :=
  ((machine supportsProcessCapture sessionFailureTx).invariant
    (I := fun e => e.pool.Numbered) (p := fun e _ => e.pool.HasNumbers)
    (fun _ _ h => nomatch h)
    (fun _ input h hnumbers => (step_grows hnumbers input).numbered h) hnumbers).2

theorem runFrom_stays_gone (hissued : e.pool.Issued failure) (hgone : ¬e.pool.IsCurrent failure)
    (hnumbers : ∀ event ∈ (machine supportsProcessCapture sessionFailureTx).eventsFrom e inputs,
      event.before.pool.HasNumbers) :
    ¬((machine supportsProcessCapture sessionFailureTx).runFrom e inputs).pool.IsCurrent failure :=
  ((machine supportsProcessCapture sessionFailureTx).invariant_from
    (I := fun e => e.pool.Issued failure ∧ ¬e.pool.IsCurrent failure)
    (p := fun e _ => e.pool.HasNumbers)
    (fun _ input h hnumbers =>
      ⟨h.1.grows (step_grows hnumbers input), h.1.stays_gone (step_grows hnumbers input) h.2⟩)
    ⟨hissued, hgone⟩ hnumbers).2.2

/-- What an event is about does not come back once it is lost. -/
theorem not_isCurrent_of_lost
    {pre mid post : List (Event AudioStreamEngine EngineInput EngineOutput)}
    {lost event : Event AudioStreamEngine EngineInput EngineOutput}
    (hsubscribed : (subscriptions inputs).Nodup)
    (hnumbers : ∀ event ∈ (machine supportsProcessCapture sessionFailureTx).events inputs,
      event.before.pool.HasNumbers)
    (hsplit : (machine supportsProcessCapture sessionFailureTx).events inputs =
      pre ++ lost :: mid ++ event :: post)
    (hbefore : lost.before.IsCurrent input) (hafter : ¬lost.after.IsCurrent input) :
    ¬event.before.IsCurrent input := by
  obtain ⟨as, bs, cs, rfl, rfl, hlost, hlostAt, rfl, hevent, -⟩ :=
    (machine supportsProcessCapture sessionFailureTx).eventsFrom_between hsplit
  rw [hsplit] at hnumbers
  have htask {failure : StreamTaskFailure} (hbefore : lost.before.pool.IsCurrent failure)
      (hafter : ¬lost.after.pool.IsCurrent failure) : ¬event.before.pool.IsCurrent failure := by
    have hnumbered : lost.before.pool.Numbered := by
      rw [hlost]
      exact run_numbered fun event hmem =>
        hnumbers event (List.mem_append_left _ (List.mem_append_left _ hmem))
    have hgrows : lost.before.pool.Grows lost.after.pool := by
      rw [hlostAt]
      exact step_grows (hnumbers lost (by simp)) lost.input
    rw [hevent]
    exact runFrom_stays_gone ((hbefore.issued hnumbered).grows hgrows) hafter
      fun event hmem => hnumbers event
        (List.mem_append_left _ (List.mem_append_right _ (List.mem_cons_of_mem _ hmem)))
  cases input with
  | closed => exact absurd trivial hafter
  | failure failure order => exact htask hbefore hafter
  | command command platform =>
    cases command with
    | transportClosed deviceId generation =>
      intro hcurrent
      have hcurrent : event.before.sessionGenerations.lookup deviceId = some generation := hcurrent
      have hbefore : lost.before.sessionGenerations.lookup deviceId = some generation := hbefore
      rw [hevent] at hcurrent
      rw [hlost] at hbefore
      obtain hnow | hlater := runFrom_generation hcurrent
      · exact hafter hnow
      · obtain hstart | hearlier := runFrom_generation hbefore
        · nomatch hstart
        · simp only [subscriptions, List.filterMap_append] at hsubscribed hlater hearlier
          refine (List.nodup_append.mp hsubscribed).2.2 _ hearlier _ ?_ rfl
          rw [List.filterMap_cons]
          split
          · simp [List.filterMap_append, hlater]
          · simp [List.filterMap_append, hlater]
    | subscribe => exact absurd trivial hafter
    | unsubscribe => exact absurd trivial hafter
    | changeSource => exact absurd trivial hafter
    | changeBitrate => exact absurd trivial hafter
    | getTcpBroadcaster => exact absurd trivial hafter
    | shutdown => exact absurd trivial hafter

/-- In every run that starts no session twice and runs over no counter, an event whose
capture, encoder or session is gone changes nothing, and every session is reported at most
once. -/
theorem stale_inert (supportsProcessCapture sessionFailureTx : Bool) (inputs : List EngineInput)
    (hsubscribed : (subscriptions inputs).Nodup)
    (hnumbers : ∀ event ∈ (machine supportsProcessCapture sessionFailureTx).events inputs,
      event.before.pool.HasNumbers) :
    (∀ pre lost mid event post,
        (machine supportsProcessCapture sessionFailureTx).events inputs =
          pre ++ lost :: mid ++ event :: post →
        lost.before.IsCurrent event.input → ¬lost.after.IsCurrent event.input →
        event.after = event.before ∧ event.output = ({} : EngineOutput)) ∧
      (reports ((machine supportsProcessCapture sessionFailureTx).events inputs)).Nodup := by
  constructor
  · intro pre lost mid event post hsplit hbefore hafter
    have hstale := not_isCurrent_of_lost hsubscribed hnumbers hsplit hbefore hafter
    have hstep := step_of_not_isCurrent hstale
    have hmem : event ∈ (machine supportsProcessCapture sessionFailureTx).events inputs := by
      rw [hsplit]
      exact List.mem_append_right _ List.mem_cons_self
    rw [(machine supportsProcessCapture sessionFailureTx).eq_eventAt_of_mem hmem]
    exact Prod.mk.inj hstep
  · exact (reports_nodup (e := new supportsProcessCapture sessionFailureTx) hsubscribed
      fun _ _ h => (nomatch h)).2

/-- The address of a phone. -/
def phoneAddr : SocketAddr := ⟨.v4 3232235786, 23556⟩

/-- A platform that grants everything. -/
def openPlatform : Platform := ⟨.ok (), true, 0⟩

/-- A phone starts listening to the desktop. -/
def subscribePhone : EngineInput :=
  .command (.subscribe "phone" 1 (some phoneAddr) none none) openPlatform

/-- The phone listens to a game instead. -/
def toGame : EngineInput := .command (.changeSource "phone" (.process 7 "game")) openPlatform

/-- The phone listens to the desktop again. -/
def toDesktop : EngineInput := .command (.changeSource "phone" .desktop) openPlatform

/-- The first capture of the desktop reports its failure. -/
def firstCaptureFailed : EngineInput := .failure (.capture .desktop 1 "device lost") []

theorem not_isCurrent_firstCaptureFailed (h : e.pool.instances.lookup .desktop = none) :
    ¬e.IsCurrent firstCaptureFailed := by
  rintro ⟨i, hlookup, -⟩
  nomatch h.symm.trans hlookup

/-- The first capture fails after the phone has left it. -/
theorem stale_inert_replacedCapture :
    ∃ event, ((machine true true).events [subscribePhone, toGame, firstCaptureFailed]).getLast? =
        some event ∧
      event.after = event.before ∧ event.output = ({} : EngineOutput) := by
  refine ⟨_, rfl, ?_⟩
  exact (stale_inert true true [subscribePhone, toGame, firstCaptureFailed] (by decide)
    (by decide +kernel)).1 [_] _ [] _ [] rfl ⟨_, rfl, rfl⟩ (not_isCurrent_firstCaptureFailed rfl)

/-- The engine while only the phone listens, to the desktop in the capture with a number. -/
def onDesktop (generation : UInt64) : AudioStreamEngine where
  pool :=
    { instances := AList.insert .desktop
        ⟨.desktop, generation, 1, AList.insert phoneAddr ⟨.uncompressed, 1⟩ ∅, ∅⟩ ∅
      supportsProcessCapture := true
      nextGeneration := generation }
  activePlayerSessions := AList.insert "phone" ⟨some phoneAddr, .desktop, none⟩ ∅
  sessionGenerations := AList.insert "phone" 1 ∅
  sessionFailureTx := true
  stopped := false

theorem onDesktop_round (generation : UInt64) :
    (machine true true).runFrom (onDesktop generation) [toGame, toDesktop] =
      onDesktop (nextGeneration (nextGeneration generation)) := by
  rfl

/-- The phone goes back and forth. -/
def rounds (n : ℕ) : List EngineInput := (List.replicate n [toGame, toDesktop]).flatten

theorem runFrom_rounds (n : ℕ) (generation : UInt64) :
    (machine true true).runFrom (onDesktop generation) (rounds n) =
      onDesktop (nextGeneration^[2 * n] generation) := by
  induction n generalizing generation with
  | zero => rfl
  | succ n ih =>
    rw [rounds, List.replicate_succ, List.flatten_cons, Machine.runFrom_append, onDesktop_round]
    exact ih _

theorem subscriptions_append (inputs inputs' : List EngineInput) :
    subscriptions (inputs ++ inputs') = subscriptions inputs ++ subscriptions inputs' :=
  List.filterMap_append

theorem subscriptions_rounds (n : ℕ) : subscriptions (rounds n) = [] := by
  induction n with
  | zero => rfl
  | succ n ih =>
    rw [rounds, List.replicate_succ, List.flatten_cons]
    exact ih

/-- The counter of captures starts again after `2 ^ 64 - 1` numbers. -/
theorem iterate_nextGeneration_toNat (n : ℕ) :
    (nextGeneration^[n] 1).toNat = n % (2 ^ 64 - 1) + 1 := by
  induction n with
  | zero => rfl
  | succ n ih =>
    rw [Function.iterate_succ_apply']
    by_cases hlast : nextGeneration^[n] 1 = lastNumber
    · have hwrap : n % (2 ^ 64 - 1) + 1 = 2 ^ 64 - 1 := by rw [← ih, hlast]; rfl
      rw [hlast, show nextGeneration lastNumber = 1 from rfl, UInt64.toNat_one]
      omega
    · have hroom : n % (2 ^ 64 - 1) + 1 ≠ 2 ^ 64 - 1 := by
        rw [← ih]
        exact fun heq => hlast (UInt64.toNat_inj.mp heq)
      rw [nextGeneration_toNat hlast, ih]
      omega

/-- A tablet starts listening to the desktop. -/
def subscribeTablet : EngineInput :=
  .command (.subscribe "tablet" 2 (some ⟨.v4 3232235787, 23556⟩) none none) openPlatform

/-- The phone goes back and forth, a tablet joins, and the first capture of the desktop
reports its failure. -/
def lateFailure (n : ℕ) : List EngineInput :=
  subscribePhone :: toGame :: (toDesktop :: rounds n ++ [subscribeTablet]) ++ [firstCaptureFailed]

theorem nodup_subscriptions_lateFailure (n : ℕ) : (subscriptions (lateFailure n)).Nodup := by
  simp only [lateFailure, List.cons_append, subscriptions_cons, subscriptions_append,
    subscriptions_rounds]
  decide

/-- After so many rounds that the counter of captures has started again the capture of the
desktop has the number of the first one. -/
theorem runFrom_lateFailure {n : ℕ} (hn : (n + 1) % (2 ^ 64 - 1) = 0) :
    (machine true true).runFrom ((machine true true).step (onDesktop 1) toGame).1
      (toDesktop :: rounds n ++ [subscribeTablet]) =
        ((machine true true).step (onDesktop 1) subscribeTablet).1 := by
  have hround : (machine true true).runFrom (onDesktop 1) (rounds (n + 1)) = onDesktop 1 := by
    rw [runFrom_rounds]
    refine congrArg onDesktop (UInt64.toNat_inj.mp ?_)
    rw [iterate_nextGeneration_toNat, UInt64.toNat_one]
    omega
  rw [rounds, List.replicate_succ, List.flatten_cons] at hround
  rw [Machine.runFrom_append]
  exact congrArg (fun e => (machine true true).runFrom e [subscribeTablet]) hround

theorem events_lateFailure {n : ℕ} (hn : (n + 1) % (2 ^ 64 - 1) = 0) :
    (machine true true).events (lateFailure n) =
      [(machine true true).eventAt (machine true true).init subscribePhone] ++
        (machine true true).eventAt (onDesktop 1) toGame ::
          (machine true true).eventsFrom ((machine true true).step (onDesktop 1) toGame).1
            (toDesktop :: rounds n ++ [subscribeTablet]) ++
        [(machine true true).eventAt ((machine true true).step (onDesktop 1) subscribeTablet).1
          firstCaptureFailed] := by
  have hfirst : ((machine true true).step (machine true true).init subscribePhone).1 =
      onDesktop 1 := rfl
  rw [lateFailure, Machine.events, Machine.eventsFrom_append, Machine.eventsFrom_cons,
    Machine.eventsFrom_cons, Machine.runFrom_cons, Machine.runFrom_cons, hfirst,
    runFrom_lateFailure hn, Machine.eventsFrom_cons, Machine.eventsFrom_nil]
  simp only [List.cons_append, List.nil_append]

/-- A failure of the first capture of the desktop ends the session of a tablet that came
after the counter of captures started again. -/
theorem not_stale_inert : ¬∀ inputs : List EngineInput, (subscriptions inputs).Nodup →
    ∀ pre lost mid event post, (machine true true).events inputs =
        pre ++ lost :: mid ++ event :: post →
      lost.before.IsCurrent event.input → ¬lost.after.IsCurrent event.input →
      event.after.activePlayerSessions = event.before.activePlayerSessions := by
  intro h
  have hsame := h (lateFailure (2 ^ 64 - 2)) (nodup_subscriptions_lateFailure _) _ _ _ _ _
    (events_lateFailure (by decide)) ⟨_, rfl, rfl⟩ (not_isCurrent_firstCaptureFailed rfl)
  have htablet := congrArg (fun sessions => AList.lookup "tablet" sessions) hsame
  exact absurd htablet (by decide +kernel)

end AudioStreamEngine

end Gemacast.Streamer
