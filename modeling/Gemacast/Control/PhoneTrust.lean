import Gemacast.Control.PhoneConnect

/-!
# What the phone trusts

The phone checks a PC when it answers its challenge, and takes the session from whichever
answer carries one. Over a call the session is that of a PC somebody vouched for exactly if
the answer with the session names a PC that was challenged in the same call or is trusted
with the certificate served.
-/

namespace Gemacast.Control

open Gemacast.Core Gemacast.Streamer

/-- One round of a Connect. -/
abbrev ConnectEvent := Event ConnectCall Round (List ConnectEffect)

namespace ConnectCall

variable {crypto : Crypto} {hasSigner : Bool} {c : ConnectCall} {r : Round}
  {presence : PresenceResponse} {challenge : DeviceAuthChallenge} {fp : String} {pc : DeviceId}
  {pre : List ConnectEvent} {e : ConnectEvent}

/-! ### What is to hold -/

/-- The signer trusts the PC with the certificate. -/
def Trusts (r : Round) (pc : DeviceId) (fp : String) : Prop :=
  ∃ known, r.trusted pc = .ok (some known) ∧ EqIgnoreAsciiCase known fp

/-- The signer trusts the PC with another certificate. -/
def Distrusts (r : Round) (pc : DeviceId) (fp : String) : Prop :=
  ∃ known, r.trusted pc = .ok (some known) ∧ ¬EqIgnoreAsciiCase known fp

/-- The user has confirmed the PC with the certificate. -/
def Confirmed (pre : List ConnectEvent) (pc : DeviceId) (fp : String) : Prop :=
  ∃ e ∈ pre, ∃ name code approval,
    ConnectEffect.confirmed pc name fp code approval (.ok true) ∈ e.output

/-- The signer has said that it trusts the PC with the certificate. -/
def WasTrusted (pre : List ConnectEvent) (pc : DeviceId) (fp : String) : Prop :=
  ∃ e ∈ pre, ∃ known, ConnectEffect.consulted pc (.ok (some known)) ∈ e.output ∧
    EqIgnoreAsciiCase known fp

/-- The round receives a body from a server with the certificate. -/
def Receives (crypto : Crypto) (e : ConnectEvent) (presence : PresenceResponse) (fp : String) :
    Prop :=
  e.before.outcome = none ∧ e.before.receive crypto e.input = .ok (presence, fp)

/-- The round receives a challenge of the PC. -/
def Challenges (crypto : Crypto) (e : ConnectEvent) (pc : DeviceId) : Prop :=
  ∃ presence fp challenge, Receives crypto e presence fp ∧
    presence.deviceAuthChallenge = some challenge ∧ presence.deviceId = pc

/-- The round receives a session. -/
def Accepts (crypto : Crypto) (e : ConnectEvent) (presence : PresenceResponse) (fp : String) :
    Prop :=
  Receives crypto e presence fp ∧ presence.deviceAuthChallenge = none ∧
    presence.sessionToken.isSome = true ∧ presence.sessionGeneration.isSome = true

/-- What a round of a call may do after the rounds before it. -/
structure KeepsTrust (crypto : Crypto) (pre : List ConnectEvent) (e : ConnectEvent) : Prop where
  /-- A session is stored with the certificate it was served with. -/
  served : ∀ credentials, .stored credentials ∈ e.output → ∃ reply certificate,
    e.input.served = .ok reply ∧ reply.certificate = some certificate ∧
      credentials.pcCertificateFingerprint = asciiLower (sha256Fingerprint crypto certificate)
  /-- For the PC stored with it the signer or the user vouches for that certificate. -/
  vouched : ∀ credentials, .stored credentials ∈ e.output →
    Trusts e.input credentials.pcDeviceId credentials.pcCertificateFingerprint ∨
      WasTrusted pre credentials.pcDeviceId credentials.pcCertificateFingerprint ∨
      Confirmed pre credentials.pcDeviceId credentials.pcCertificateFingerprint
  /-- A PC that is trusted with another certificate gets no session. -/
  refused : ∀ credentials, .stored credentials ∈ e.output →
    ¬Distrusts e.input credentials.pcDeviceId credentials.pcCertificateFingerprint
  /-- A challenge of a PC that is trusted with another certificate ends the call. -/
  ended : ∀ presence fp challenge, Receives crypto e presence fp →
    presence.deviceAuthChallenge = some challenge → Distrusts e.input presence.deviceId fp →
      ∃ error, e.after.outcome = some (.error error)
  /-- Only a PC the user has confirmed is remembered. -/
  remembered : ∀ pc fp, .remembered pc fp ∈ e.output → Confirmed pre pc fp

/-! ### One round -/

/-- A request that gets through gets what was served, under the certificate insisted on. -/
theorem send_ok {reply : Reply} (h : c.send crypto r = .ok reply) : r.served = .ok reply ∧
    ∀ expected certificate, c.pinned = some expected → reply.certificate = some certificate →
      asciiLower expected = sha256Fingerprint crypto certificate := by
  unfold send at h
  split at h
  · cases h
  · next served hserved =>
    split at h
    · next expected certificate hpinned hcertificate =>
      split at h
      · next heq =>
        obtain rfl := Except.ok.inj h
        refine ⟨hserved, fun expected' certificate' hpinned' hcertificate' => ?_⟩
        obtain rfl := Option.some.inj (hpinned.symm.trans hpinned')
        obtain rfl := Option.some.inj (hcertificate.symm.trans hcertificate')
        exact heq
      · cases h
    · next hnone =>
      obtain rfl := Except.ok.inj h
      exact ⟨hserved, fun expected certificate hpinned hcertificate =>
        absurd hcertificate (hnone expected certificate hpinned)⟩

/-- A PC that advertises the certificate observed is known by its name in lower case. -/
theorem verify_ok {observed : String} (h : verifyPresenceCertificate presence observed = .ok fp) :
    fp = asciiLower observed := by
  unfold verifyPresenceCertificate at h
  split at h
  · cases h
  · split at h
    · next heq => exact (Except.ok.inj h).symm.trans heq
    · cases h

/-- What is received comes with the certificate it was served with. -/
theorem receive_served (h : c.receive crypto r = .ok (presence, fp)) :
    ∃ reply certificate, r.served = .ok reply ∧ reply.certificate = some certificate ∧
      fp = asciiLower (sha256Fingerprint crypto certificate) ∧
      ∀ expected, c.pinned = some expected →
        asciiLower expected = sha256Fingerprint crypto certificate := by
  unfold receive at h
  split at h
  · cases h
  · next reply hsend =>
    split at h
    · cases h
    · next certificate hcertificate =>
      split at h
      · cases h
      · next body hbody =>
        split at h
        · cases h
        · next fingerprint hverify =>
          obtain ⟨rfl, rfl⟩ := Prod.mk.inj (Except.ok.inj h)
          obtain ⟨hserved, hpin⟩ := send_ok hsend
          exact ⟨reply, certificate, hserved, hcertificate, verify_ok hverify,
            fun expected hpinned =>
            hpin expected certificate hpinned hcertificate⟩

/-- The certificate received is known by its name in lower case. -/
theorem receive_lower (h : c.receive crypto r = .ok (presence, fp)) : asciiLower fp = fp := by
  obtain ⟨reply, certificate, -, -, rfl, -⟩ := receive_served h
  exact asciiLower_asciiLower _

/-- A pinned client receives from its PC only. -/
theorem receive_pinned {expected : String} (hpinned : c.pinned = some expected)
    (hlower : asciiLower expected = expected) (h : c.receive crypto r = .ok (presence, fp)) :
    fp = expected := by
  obtain ⟨reply, certificate, -, -, rfl, hpin⟩ := receive_served h
  rw [← hpin expected hpinned, asciiLower_asciiLower, hlower]

/-- The effect is a question about the PC. -/
inductive Asks (pc : DeviceId) : ConnectEffect → Prop
  | consulted (trusted : Except String (Option String)) : Asks pc (.consulted pc trusted)
  | confirmed (name fp code : String) (approval : Bool) (answer : Except String Bool) :
    Asks pc (.confirmed pc name fp code approval answer)

/-- What the answer to a challenge comes to. -/
structure Answered (c : ConnectCall) (r : Round) (pc : DeviceId) (fp : String)
    (answer : ConnectCall × List ConnectEffect) : Prop where
  /-- The signer and the user are asked about this PC. -/
  asks : ∀ effect ∈ answer.2, Asks pc effect
  /-- A PC that is trusted with another certificate is refused. -/
  refused : Distrusts r pc fp → ∃ error, answer.1.outcome = some (.error error)
  /-- The phone goes on with this certificate only, and only if somebody vouches for it. -/
  proceeds : answer.1.outcome = none → answer.1.pinned = some fp ∧
    ((∃ known, .consulted pc (.ok (some known)) ∈ answer.2 ∧ EqIgnoreAsciiCase known fp) ∨
      ∃ name code approval, .confirmed pc name fp code approval (.ok true) ∈ answer.2)
  /-- A PC becomes the candidate when the user confirms it. -/
  candidate : answer.1.candidatePcIdentity = c.candidatePcIdentity ∨
    answer.1.candidatePcIdentity = some (pc, fp) ∧
      ∃ name code approval, .confirmed pc name fp code approval (.ok true) ∈ answer.2

/-- A refusal answers a challenge. -/
theorem answered_reject {reason : String} {effects : List ConnectEffect}
    (hasks : ∀ effect ∈ effects, Asks pc effect) : Answered c r pc fp (c.reject reason, effects) :=
  ⟨hasks, fun _ => ⟨_, rfl⟩, nofun, .inl rfl⟩

/-- The phone goes on with a PC somebody vouches for. -/
theorem answered_proceed {auth : DeviceAuthRequest} {challengeId : String}
    {trusted : Option String} {phoneConfirmed : Bool} {effects : List ConnectEffect}
    (hasks : ∀ effect ∈ effects, Asks pc effect) (hnot : ¬Distrusts r pc fp)
    (hvouched :
      (∃ known, .consulted pc (.ok (some known)) ∈ effects ∧ EqIgnoreAsciiCase known fp) ∨
        ∃ name code approval, .confirmed pc name fp code approval (.ok true) ∈ effects)
    (hconfirmed : trusted = none →
      ∃ name code approval, .confirmed pc name fp code approval (.ok true) ∈ effects) :
    Answered c r pc fp
      (c.proceed r pc auth challengeId fp trusted phoneConfirmed, effects) := by
  unfold proceed
  split
  · exact answered_reject hasks
  · split
    · exact answered_reject hasks
    · refine ⟨hasks, fun hdistrusts => absurd hdistrusts hnot, fun _ => ⟨rfl, hvouched⟩, ?_⟩
      cases trusted with
      | none => exact .inr ⟨rfl, hconfirmed rfl⟩
      | some known => exact .inl rfl

/-- The answer to a challenge. -/
theorem answerChallenge_answered : Answered c r presence.deviceId fp
    (c.answerChallenge crypto hasSigner r presence challenge fp) := by
  have hconsulted : ∀ trusted, ∀ effect ∈ [ConnectEffect.consulted presence.deviceId trusted],
      Asks presence.deviceId effect := by
    intro trusted effect hmem
    obtain rfl := List.mem_singleton.mp hmem
    exact .consulted trusted
  unfold answerChallenge
  split
  · exact answered_reject nofun
  split
  · exact answered_reject nofun
  split
  · exact answered_reject nofun
  dsimp only
  split
  · exact answered_reject nofun
  split
  · exact answered_reject (hconsulted _)
  next trusted htrusted =>
  split
  · exact answered_reject (hconsulted _)
  next hsame =>
  have hnot : ¬Distrusts r presence.deviceId fp := by
    rintro ⟨known, hknown, hne⟩
    obtain rfl := Except.ok.inj (htrusted.symm.trans hknown)
    exact hsame (by simpa using hne)
  have hknown : ∀ known, trusted = some known → EqIgnoreAsciiCase known fp := by
    rintro known rfl
    simpa using hsame
  split
  · have hboth : ∀ code answer, ∀ effect ∈ [ConnectEffect.consulted presence.deviceId (.ok trusted),
        .confirmed presence.deviceId presence.streamerName fp code challenge.requiresApproval
          answer], Asks presence.deviceId effect := by
      intro code answer effect hmem
      obtain rfl | hmem := List.mem_cons.mp hmem
      · exact .consulted _
      · obtain rfl := List.mem_singleton.mp hmem
        exact .confirmed ..
    rw [htrusted]
    split
    · exact answered_reject (hboth _ _)
    · exact answered_reject (hboth _ _)
    · next hconfirm =>
      rw [hconfirm]
      exact answered_proceed (hboth _ _) hnot
        (.inr ⟨_, _, _, List.mem_cons_of_mem _ (List.mem_singleton.mpr rfl)⟩)
        fun _ => ⟨_, _, _, List.mem_cons_of_mem _ (List.mem_singleton.mpr rfl)⟩
  · next hask =>
    cases trusted with
    | none => exact absurd rfl hask
    | some known =>
      refine answered_proceed (hconsulted _) hnot (.inl ⟨known, ?_, hknown known rfl⟩) nofun
      rw [htrusted]
      exact List.mem_singleton.mpr rfl

/-- What taking a session comes to. -/
structure Taken (c : ConnectCall) (presence : PresenceResponse) (fp : String)
    (answer : ConnectCall × List ConnectEffect) : Prop where
  /-- The session is stored for the PC that sent it. -/
  stored : ∀ credentials, .stored credentials ∈ answer.2 ↔ ∃ token generation,
    presence.sessionToken = some token ∧ presence.sessionGeneration = some generation ∧
      credentials = ⟨c.req.deviceId, token, generation, presence.deviceId, fp⟩
  /-- Only the candidate is remembered. -/
  remembered : ∀ pc fp, .remembered pc fp ∈ answer.2 → c.candidatePcIdentity = some (pc, fp)
  /-- Nobody is asked. -/
  asksNobody : ∀ pc, ∀ effect ∈ answer.2, ¬Asks pc effect
  /-- The call is over. -/
  finished : answer.1.outcome ≠ none
  /-- There is no candidate left. -/
  candidate : answer.1.candidatePcIdentity = none

/-- A session is stored, and then at most the candidate remembered. -/
theorem taken_of_rest {token : String} {generation : SessionGeneration} {c' : ConnectCall}
    {rest : List ConnectEffect} (htoken : presence.sessionToken = some token)
    (hgeneration : presence.sessionGeneration = some generation)
    (hrest : ∀ effect ∈ rest, effect = .cleared ∨
      ∃ pc fp, effect = .remembered pc fp ∧ c.candidatePcIdentity = some (pc, fp))
    (hover : c'.outcome ≠ none) (hcandidate : c'.candidatePcIdentity = none) :
    Taken c presence fp
      (c', .stored ⟨c.req.deviceId, token, generation, presence.deviceId, fp⟩ :: rest) := by
  refine ⟨fun credentials => ?_, fun pc fp hmem => ?_, fun pc effect hmem hasks => ?_, hover,
    hcandidate⟩
  · rw [List.mem_cons, ConnectEffect.stored.injEq]
    constructor
    · rintro (rfl | hmem)
      · exact ⟨token, generation, htoken, hgeneration, rfl⟩
      · obtain heq | ⟨_, _, heq, -⟩ := hrest _ hmem <;> nomatch heq
    · rintro ⟨token', generation', htoken', hgeneration', rfl⟩
      obtain rfl := Option.some.inj (htoken.symm.trans htoken')
      obtain rfl := Option.some.inj (hgeneration.symm.trans hgeneration')
      exact .inl rfl
  · obtain heq | hmem := List.mem_cons.mp hmem
    · nomatch heq
    · obtain heq | ⟨_, _, heq, hcandidate⟩ := hrest _ hmem
      · nomatch heq
      · obtain ⟨rfl, rfl⟩ := ConnectEffect.remembered.inj heq
        exact hcandidate
  · obtain rfl | hmem := List.mem_cons.mp hmem
    · nomatch hasks
    · obtain rfl | ⟨_, _, rfl, -⟩ := hrest _ hmem <;> nomatch hasks

/-- Taking a session. -/
theorem accept_taken {token : String} {generation : SessionGeneration}
    (htoken : presence.sessionToken = some token)
    (hgeneration : presence.sessionGeneration = some generation) :
    Taken c presence fp (c.accept hasSigner r presence token generation fp) := by
  unfold accept
  split
  · exact taken_of_rest htoken hgeneration nofun nofun rfl
  next pcId fingerprint hcandidate =>
  have hremembered : ∀ effect ∈ [ConnectEffect.remembered pcId fingerprint], effect = .cleared ∨
      ∃ pc fp, effect = .remembered pc fp ∧ c.candidatePcIdentity = some (pc, fp) := by
    intro effect hmem
    exact .inr ⟨pcId, fingerprint, List.mem_singleton.mp hmem, hcandidate⟩
  split
  · exact taken_of_rest htoken hgeneration nofun nofun rfl
  split
  · exact taken_of_rest htoken hgeneration hremembered nofun rfl
  split
  · refine taken_of_rest htoken hgeneration (fun effect hmem => ?_) nofun rfl
    obtain rfl | hmem := List.mem_cons.mp hmem
    · exact .inr ⟨pcId, fingerprint, rfl, hcandidate⟩
    · exact .inl (List.mem_singleton.mp hmem)
  · exact taken_of_rest htoken hgeneration hremembered nofun rfl

/-- What a round comes to. -/
inductive Rounds (crypto : Crypto) (c : ConnectCall) (r : Round) :
    ConnectCall × List ConnectEffect → Prop
  /-- The call was over. -/
  | finished (hover : c.outcome ≠ none) : Rounds crypto c r (c, [])
  /-- Nothing is received. -/
  | failed {error : ClientError} (hopen : c.outcome = none)
      (hreceive : c.receive crypto r = .error error) : Rounds crypto c r (c.fail error, [])
  /-- A challenge is answered. -/
  | challenge {presence : PresenceResponse} {fp : String} {challenge : DeviceAuthChallenge}
      {answer : ConnectCall × List ConnectEffect} (hopen : c.outcome = none)
      (hreceive : c.receive crypto r = .ok (presence, fp))
      (hchallenge : presence.deviceAuthChallenge = some challenge)
      (hanswer : Answered c r presence.deviceId fp answer) : Rounds crypto c r answer
  /-- A session is taken. -/
  | session {presence : PresenceResponse} {fp : String}
      {answer : ConnectCall × List ConnectEffect} (hopen : c.outcome = none)
      (hreceive : c.receive crypto r = .ok (presence, fp))
      (hchallenge : presence.deviceAuthChallenge = none)
      (hsession : presence.sessionToken.isSome = true ∧ presence.sessionGeneration.isSome = true)
      (htaken : Taken c presence fp answer) : Rounds crypto c r answer
  /-- There is nothing but waiting. -/
  | wait {presence : PresenceResponse} {fp : String} {c' : ConnectCall} (hopen : c.outcome = none)
      (hreceive : c.receive crypto r = .ok (presence, fp))
      (hchallenge : presence.deviceAuthChallenge = none)
      (hsession :
        ¬(presence.sessionToken.isSome = true ∧ presence.sessionGeneration.isSome = true))
      (hpinned : c'.pinned = c.pinned)
      (hcandidate : c'.candidatePcIdentity = c.candidatePcIdentity) :
      Rounds crypto c r (c', [])

/-- Waiting changes neither the certificate insisted on nor the candidate. -/
theorem pend_keeps : (c.pend r presence).pinned = c.pinned ∧
    (c.pend r presence).candidatePcIdentity = c.candidatePcIdentity := by
  unfold pend
  split
  · exact ⟨rfl, rfl⟩
  · dsimp only
    split
    · exact ⟨rfl, rfl⟩
    · exact ⟨rfl, rfl⟩

/-- One round. -/
theorem round_rounds : Rounds crypto c r (c.round crypto hasSigner r) := by
  unfold round
  split
  · next houtcome => exact .finished (by rw [houtcome]; nofun)
  next hopen =>
  split
  · next hreceive => exact .failed hopen hreceive
  next presence fp hreceive =>
  split
  · next hchallenge => exact .challenge hopen hreceive hchallenge answerChallenge_answered
  next hchallenge =>
  split
  · next htoken hgeneration =>
    refine .session hopen hreceive hchallenge ?_ (accept_taken htoken hgeneration)
    rw [htoken, hgeneration]
    exact ⟨rfl, rfl⟩
  · next hnone =>
    obtain ⟨hpinned, hcandidate⟩ := @pend_keeps c r presence
    refine .wait hopen hreceive hchallenge ?_ hpinned hcandidate
    rintro ⟨htoken, hgeneration⟩
    obtain ⟨token, htoken⟩ := Option.isSome_iff_exists.mp htoken
    obtain ⟨generation, hgeneration⟩ := Option.isSome_iff_exists.mp hgeneration
    exact hnone token generation htoken hgeneration

/-! ### Whole calls -/

/-- A call in which something was received received it once. -/
theorem Receives.unique {presence' : PresenceResponse} {fp' : String}
    (h : Receives crypto e presence fp) (h' : Receives crypto e presence' fp') :
    presence = presence' ∧ fp = fp' :=
  Prod.mk.inj (Except.ok.inj (h.2.symm.trans h'.2))

/-- Something among events and one more. -/
theorem exists_mem_concat {P : ConnectEvent → Prop} :
    (∃ e' ∈ pre ++ [e], P e') ↔ (∃ e' ∈ pre, P e') ∨ P e := by
  simp only [List.mem_append, List.mem_singleton, or_and_right, exists_or, exists_eq_left]

theorem wasTrusted_concat : WasTrusted (pre ++ [e]) pc fp ↔ WasTrusted pre pc fp ∨
    ∃ known, .consulted pc (.ok (some known)) ∈ e.output ∧ EqIgnoreAsciiCase known fp :=
  exists_mem_concat

theorem confirmed_concat : Confirmed (pre ++ [e]) pc fp ↔ Confirmed pre pc fp ∨
    ∃ name code approval, .confirmed pc name fp code approval (.ok true) ∈ e.output :=
  exists_mem_concat

/-- What the rounds before tell about a call. -/
structure Settled (crypto : Crypto) (pre : List ConnectEvent) (c : ConnectCall) : Prop where
  /-- Somebody vouches for every PC that was challenged, with the certificate insisted on. -/
  challenged : c.outcome = none → ∀ pc, (∃ e ∈ pre, Challenges crypto e pc) →
    ∃ fp, c.pinned = some fp ∧ asciiLower fp = fp ∧ (WasTrusted pre pc fp ∨ Confirmed pre pc fp)
  /-- The candidate was confirmed. -/
  candidate : ∀ pc fp, c.candidatePcIdentity = some (pc, fp) → Confirmed pre pc fp
  /-- The signer and the user are asked about a PC that was challenged. -/
  asked : ∀ pc fp, WasTrusted pre pc fp ∨ Confirmed pre pc fp → ∃ e ∈ pre, Challenges crypto e pc

/-- A round keeps it. -/
theorem Settled.concat (h : Settled crypto pre e.before)
    (hround : Rounds crypto e.before e.input (e.after, e.output)) :
    Settled crypto (pre ++ [e]) e.after := by
  have hkept : ∀ pc fp, WasTrusted pre pc fp ∨ Confirmed pre pc fp →
      WasTrusted (pre ++ [e]) pc fp ∨ Confirmed (pre ++ [e]) pc fp := fun pc fp =>
    Or.imp (fun h => wasTrusted_concat.mpr (.inl h)) fun h => confirmed_concat.mpr (.inl h)
  have hquiet : (∀ effect ∈ e.output, ∀ pc, ¬Asks pc effect) → ∀ pc fp,
      WasTrusted (pre ++ [e]) pc fp ∨ Confirmed (pre ++ [e]) pc fp →
        ∃ e' ∈ pre ++ [e], Challenges crypto e' pc := by
    intro hasks pc fp hsaid
    rw [wasTrusted_concat, confirmed_concat] at hsaid
    obtain (hold | ⟨_, hmem, -⟩) | hold | ⟨_, _, _, hmem⟩ := hsaid
    · exact exists_mem_concat.mpr (.inl (h.asked pc fp (.inl hold)))
    · exact absurd (.consulted _) (hasks _ hmem pc)
    · exact exists_mem_concat.mpr (.inl (h.asked pc fp (.inr hold)))
    · exact absurd (.confirmed ..) (hasks _ hmem pc)
  generalize hafter : e.after = c' at hround ⊢
  generalize houtput : e.output = effects at hround hquiet
  cases hround with
  | finished hover =>
    refine ⟨fun hopen => absurd hopen hover, fun pc fp hcandidate => ?_, hquiet nofun⟩
    exact confirmed_concat.mpr (.inl (h.candidate pc fp hcandidate))
  | failed hopen hreceive =>
    refine ⟨nofun, fun pc fp hcandidate => ?_, hquiet nofun⟩
    exact confirmed_concat.mpr (.inl (h.candidate pc fp hcandidate))
  | @challenge presence fp challenge answer hopen hreceive hchallenge hanswer =>
    have hreceives : Receives crypto e presence fp := ⟨hopen, hreceive⟩
    have hchallenges : Challenges crypto e presence.deviceId :=
      ⟨presence, fp, challenge, hreceives, hchallenge, rfl⟩
    refine ⟨fun hgoes pc hpc => ?_, fun pc fp' hcandidate => ?_, fun pc fp' hsaid => ?_⟩
    · obtain ⟨hpinned, hvouched⟩ := hanswer.proceeds hgoes
      obtain hpc | ⟨presence', fp', challenge', hreceives', -, rfl⟩ := exists_mem_concat.mp hpc
      · obtain ⟨known, hknown, hlower, hsaid⟩ := h.challenged hopen pc hpc
        obtain rfl := receive_pinned hknown hlower hreceive
        exact ⟨fp, hpinned, hlower, hkept pc fp hsaid⟩
      · obtain ⟨rfl, rfl⟩ := hreceives.unique hreceives'
        refine ⟨fp, hpinned, receive_lower hreceive, ?_⟩
        rw [wasTrusted_concat, confirmed_concat, houtput]
        exact hvouched.imp .inr .inr
    · rw [confirmed_concat, houtput]
      obtain hsame | ⟨hnew, hconfirmed⟩ := hanswer.candidate
      · exact .inl (h.candidate pc fp' (hsame.symm.trans hcandidate))
      · obtain ⟨rfl, rfl⟩ := Prod.mk.inj (Option.some.inj (hnew.symm.trans hcandidate))
        exact .inr hconfirmed
    · rw [wasTrusted_concat, confirmed_concat, houtput] at hsaid
      rw [exists_mem_concat]
      obtain (hold | ⟨_, hmem, -⟩) | hold | ⟨_, _, _, hmem⟩ := hsaid
      · exact .inl (h.asked pc fp' (.inl hold))
      · cases hanswer.asks _ hmem
        exact .inr hchallenges
      · exact .inl (h.asked pc fp' (.inr hold))
      · cases hanswer.asks _ hmem
        exact .inr hchallenges
  | @session presence fp answer hopen hreceive hchallenge hsession htaken =>
    refine ⟨fun hgoes => absurd hgoes htaken.finished, ?_, hquiet fun effect hmem pc => ?_⟩
    · rw [htaken.candidate]
      nofun
    · exact htaken.asksNobody pc effect hmem
  | @wait presence fp c' hopen hreceive hchallenge hsession hpinned hcandidate =>
    refine ⟨fun _ pc hpc => ?_, fun pc fp' hcandidate' => ?_, hquiet nofun⟩
    · obtain hpc | ⟨presence', fp', challenge, hreceives, hsome, -⟩ := exists_mem_concat.mp hpc
      · obtain ⟨fp, hfp, hlower, hsaid⟩ := h.challenged hopen pc hpc
        exact ⟨fp, hpinned.trans hfp, hlower, hkept pc fp hsaid⟩
      · obtain ⟨rfl, -⟩ := hreceives.unique ⟨hopen, hreceive⟩
        nomatch hchallenge.symm.trans hsome
    · exact confirmed_concat.mpr (.inl (h.candidate pc fp' (hcandidate.symm.trans hcandidate')))

theorem Trusts.not_distrusts (h : Trusts r pc fp) : ¬Distrusts r pc fp := by
  obtain ⟨known, hknown, heq⟩ := h
  rintro ⟨known', hknown', hne⟩
  obtain rfl := Option.some.inj (Except.ok.inj (hknown.symm.trans hknown'))
  exact hne heq

/-- A round does as it should exactly if the session it receives is that of a PC somebody
vouches for. -/
theorem Settled.at_round (h : Settled crypto pre e.before)
    (hround : Rounds crypto e.before e.input (e.after, e.output)) :
    KeepsTrust crypto pre e ↔ ∀ presence fp, Accepts crypto e presence fp →
      Trusts e.input presence.deviceId fp ∨ ¬Distrusts e.input presence.deviceId fp ∧
        ∃ e' ∈ pre, Challenges crypto e' presence.deviceId := by
  have hsilent : e.output = [] → (∀ presence fp challenge, Receives crypto e presence fp →
      presence.deviceAuthChallenge ≠ some challenge) → KeepsTrust crypto pre e := by
    intro houtput hnone
    refine ⟨?_, ?_, ?_, fun presence fp challenge hreceives hsome => ?_, ?_⟩
    · rw [houtput]
      nofun
    · rw [houtput]
      nofun
    · rw [houtput]
      nofun
    · exact absurd hsome (hnone presence fp challenge hreceives)
    · rw [houtput]
      nofun
  generalize hafter : e.after = c' at hround
  generalize houtput : e.output = effects at hround hsilent
  cases hround with
  | finished hover =>
    exact iff_of_true (hsilent rfl fun _ _ _ hreceives => absurd hreceives.1 hover)
      fun _ _ haccepts => absurd haccepts.1.1 hover
  | failed hopen hreceive =>
    have hnever : ∀ presence fp, ¬Receives crypto e presence fp :=
      fun _ _ hreceives => nomatch hreceive.symm.trans hreceives.2
    exact iff_of_true (hsilent rfl fun _ _ _ hreceives => absurd hreceives (hnever _ _))
      fun _ _ haccepts => absurd haccepts.1 (hnever _ _)
  | @challenge presence fp challenge answer hopen hreceive hchallenge hanswer =>
    have hreceives : Receives crypto e presence fp := ⟨hopen, hreceive⟩
    refine iff_of_true ?_ fun presence' fp' haccepts => ?_
    · refine ⟨?_, ?_, ?_, fun presence' fp' challenge' hreceives' _ hdistrusts => ?_, ?_⟩
      · intro credentials hmem
        rw [houtput] at hmem
        nomatch hanswer.asks _ hmem
      · intro credentials hmem
        rw [houtput] at hmem
        nomatch hanswer.asks _ hmem
      · intro credentials hmem
        rw [houtput] at hmem
        nomatch hanswer.asks _ hmem
      · obtain ⟨rfl, rfl⟩ := hreceives.unique hreceives'
        rw [hafter]
        exact hanswer.refused hdistrusts
      · intro pc fp hmem
        rw [houtput] at hmem
        nomatch hanswer.asks _ hmem
    · obtain ⟨rfl, -⟩ := hreceives.unique haccepts.1
      nomatch hchallenge.symm.trans haccepts.2.1
  | @session presence fp answer hopen hreceive hchallenge hsession htaken =>
    have hreceives : Receives crypto e presence fp := ⟨hopen, hreceive⟩
    constructor
    · intro hkeeps presence' fp' haccepts
      obtain ⟨rfl, rfl⟩ := hreceives.unique haccepts.1
      obtain ⟨token, htoken⟩ := Option.isSome_iff_exists.mp hsession.1
      obtain ⟨generation, hgeneration⟩ := Option.isSome_iff_exists.mp hsession.2
      have hstored : ConnectEffect.stored
          ⟨e.before.req.deviceId, token, generation, presence.deviceId, fp⟩ ∈ e.output := by
        rw [houtput]
        exact (htaken.stored _).mpr ⟨token, generation, htoken, hgeneration, rfl⟩
      by_cases htrusts : Trusts e.input presence.deviceId fp
      · exact .inl htrusts
      · obtain htrusts' | hsaid := hkeeps.vouched _ hstored
        · exact absurd htrusts' htrusts
        · exact .inr ⟨hkeeps.refused _ hstored, h.asked _ _ hsaid⟩
    · intro hall
      have hvouched := hall presence fp ⟨hreceives, hchallenge, hsession⟩
      have hcredentials : ∀ credentials, .stored credentials ∈ e.output →
          credentials.pcDeviceId = presence.deviceId ∧
            credentials.pcCertificateFingerprint = fp := by
        intro credentials hmem
        rw [houtput] at hmem
        obtain ⟨token, generation, -, -, rfl⟩ := (htaken.stored credentials).mp hmem
        exact ⟨rfl, rfl⟩
      refine ⟨fun credentials hmem => ?_, fun credentials hmem => ?_, fun credentials hmem => ?_,
        fun presence' fp' challenge' hreceives' hsome => ?_, fun pc fp' hmem => ?_⟩
      · obtain ⟨reply, certificate, hserved, hcertificate, hfp, -⟩ := receive_served hreceive
        exact ⟨reply, certificate, hserved, hcertificate,
          (hcredentials credentials hmem).2.trans hfp⟩
      · obtain ⟨hpc, hfp⟩ := hcredentials credentials hmem
        rw [hpc, hfp]
        obtain htrusts | ⟨-, hchallenged⟩ := hvouched
        · exact .inl htrusts
        · obtain ⟨known, hknown, hlower, hsaid⟩ := h.challenged hopen _ hchallenged
          obtain rfl := receive_pinned hknown hlower hreceive
          exact .inr hsaid
      · obtain ⟨hpc, hfp⟩ := hcredentials credentials hmem
        rw [hpc, hfp]
        exact hvouched.elim Trusts.not_distrusts And.left
      · obtain ⟨rfl, -⟩ := hreceives.unique hreceives'
        nomatch hchallenge.symm.trans hsome
      · rw [houtput] at hmem
        exact h.candidate pc fp' (htaken.remembered pc fp' hmem)
  | @wait presence fp c' hopen hreceive hchallenge hsession hpinned hcandidate =>
    have hreceives : Receives crypto e presence fp := ⟨hopen, hreceive⟩
    refine iff_of_true (hsilent rfl fun presence' fp' challenge' hreceives' hsome => ?_)
      fun presence' fp' haccepts => ?_
    · obtain ⟨rfl, -⟩ := hreceives.unique hreceives'
      nomatch hchallenge.symm.trans hsome
    · obtain ⟨rfl, -⟩ := hreceives.unique haccepts.1
      exact absurd haccepts.2.2 hsession

theorem start_keeps {nonce : Except String (List UInt8)} {publicKey : Except String String}
    {req : ConnectReq} :
    (start crypto hasSigner nonce publicKey req).candidatePcIdentity = none := by
  unfold start
  dsimp only
  repeat' split
  all_goals rfl

/-- A phone that trusts the PC with another certificate than the one served. -/
def unprovedRound : Round where
  now := 0
  served := .ok ⟨some [1], .ok
    { deviceId := "pc", streamerName := "PC", isOffline := false, deviceRegistered := some true
      sessionToken := some "token", sessionGeneration := some 1, pendingRequestId := none
      deviceAuthChallenge := none, pcCertificateFingerprint := some "01"
      pcOutputVolume := none }⟩
  trusted := fun _ => .ok (some "02")
  confirm := .ok false
  sign := .ok "signature"
  rebuild := .ok ()
  remember := .ok ()
  disconnect := .ok ()

end ConnectCall

end Gemacast.Control
