import Gemacast.Control.PhoneTrust

/-!
# How long a Connect goes on

A phone that waits for approval asks again every quarter of a second, and no longer than up to a
deadline. A phone that is challenged asks again at once, and looks at no clock: the exchange is
bounded exactly for the servers whose challenges are.
-/

namespace Gemacast.Control

open Gemacast.Core Gemacast.Streamer

/-- The pause between two requests while the phone waits for approval. -/
def pollInterval : ℕ := seconds 1 / 4

/-- What everybody answers in one round, and how long that takes up to the look at the clock. -/
structure TimedRound where
  /-- The time it takes. -/
  elapsed : ℕ
  /-- The answers; the time they give is not read. -/
  answers : Round

/-- A Connect and the clock it runs by. -/
structure TimedCall where
  /-- The call. -/
  call : ConnectCall
  /-- The clock when the next request goes out. -/
  clock : ℕ

namespace TimedCall

/-- The round as it is at this time. -/
def roundAt (t : TimedCall) (i : TimedRound) : Round :=
  { i.answers with now := t.clock + i.elapsed }

/-- The call receives a challenge. -/
def challenged (crypto : Crypto) (t : TimedCall) (i : TimedRound) : Bool :=
  t.call.outcome.isNone &&
    match t.call.receive crypto (t.roundAt i) with
    | .ok (presence, _) => presence.deviceAuthChallenge.isSome
    | .error _ => false

/-- One round; a call that goes on without having been challenged pauses. -/
def step (crypto : Crypto) (hasSigner : Bool) (t : TimedCall) (i : TimedRound) :
    TimedCall × List ConnectEffect :=
  let r := t.roundAt i
  let (next, effects) := t.call.round crypto hasSigner r
  let pauses := t.call.outcome.isNone && next.outcome.isNone && !t.challenged crypto i
  (⟨next, if pauses then r.now + pollInterval else r.now⟩, effects)

/-- The timed call as a machine. -/
def machine (crypto : Crypto) (hasSigner : Bool) (nonce : Except String (List UInt8))
    (publicKey : Except String String) (req : ConnectReq) (clock : ℕ) :
    Machine TimedCall TimedRound (List ConnectEffect) where
  init := ⟨ConnectCall.start crypto hasSigner nonce publicKey req, clock⟩
  step := step crypto hasSigner

end TimedCall

namespace ConnectCall

variable {crypto : Crypto} {hasSigner : Bool} {c : ConnectCall} {r : Round}
  {presence : PresenceResponse} {challenge : DeviceAuthChallenge} {fp : String}

theorem start_approvalDeadline {nonce : Except String (List UInt8)}
    {publicKey : Except String String} {req : ConnectReq} :
    (start crypto hasSigner nonce publicKey req).approvalDeadline = none := by
  unfold start
  dsimp only
  repeat' split
  all_goals rfl

theorem proceed_approvalDeadline {pcId : DeviceId} {auth : DeviceAuthRequest}
    {challengeId : String} {trusted : Option String} {phoneConfirmed : Bool} :
    (c.proceed r pcId auth challengeId fp trusted phoneConfirmed).approvalDeadline =
      c.approvalDeadline := by
  unfold proceed
  repeat' split
  all_goals rfl

/-- A challenge is answered without regard to the deadline. -/
theorem answerChallenge_approvalDeadline :
    (c.answerChallenge crypto hasSigner r presence challenge fp).1.approvalDeadline =
      c.approvalDeadline := by
  unfold answerChallenge
  dsimp only
  repeat' split
  all_goals first | rfl | exact proceed_approvalDeadline

/-- A phone goes on waiting only in front of its deadline, which stays where it was set. -/
theorem pend_open (h : (c.pend r presence).outcome = none) :
    (c.pend r presence).approvalDeadline =
        some (c.approvalDeadline.getD (r.now + connectTimeout)) ∧
      r.now < c.approvalDeadline.getD (r.now + connectTimeout) := by
  unfold pend at h ⊢
  split at h
  · exact absurd h nofun
  · dsimp only at h ⊢
    split at h
    · exact absurd h nofun
    · next hdeadline => exact ⟨by rw [if_neg hdeadline], by omega⟩

/-- A PC that is trusted and does not ask its user has its challenge answered at once. -/
theorem answerChallenge_trusted {auth : DeviceAuthRequest} {known : String}
    (hbound : EqIgnoreAsciiCase challenge.pcCertificateFingerprint fp)
    (hauth : c.req.deviceAuth = some auth)
    (hcode : challenge.pairingCode = pairingCode crypto (buildDeviceAuthTranscript c.req.deviceId
      presence.deviceId fp auth.publicKey auth.phoneNonce challenge.challengeId
      challenge.challenge))
    (htrusted : r.trusted presence.deviceId = .ok (some known))
    (hknown : EqIgnoreAsciiCase known fp)
    (hsilent : challenge.requiresApproval = false) :
    (c.answerChallenge crypto true r presence challenge fp).1 =
      c.proceed r presence.deviceId auth challenge.challengeId fp (some known) false := by
  unfold answerChallenge
  rw [if_neg (not_not.mpr hbound), if_neg (by decide), hauth]
  dsimp only
  rw [if_neg (not_not.mpr hcode), htrusted]
  dsimp only
  rw [if_neg (by simpa using hknown), hsilent]
  rfl

/-- A call that goes on without having been challenged waits for approval. -/
theorem round_waits (hreceive : c.receive crypto r = .ok (presence, fp))
    (hchallenge : presence.deviceAuthChallenge = none)
    (h : (c.round crypto hasSigner r).1.outcome = none) :
    c.round crypto hasSigner r = (c.pend r presence, []) := by
  cases hopen : c.outcome with
  | some outcome =>
    unfold round at h
    rw [hopen] at h
    exact absurd (hopen.symm.trans h) nofun
  | none =>
    unfold round at h ⊢
    rw [hopen, hreceive] at h ⊢
    dsimp only at h ⊢
    rw [hchallenge] at h ⊢
    dsimp only at h ⊢
    split at h
    · next htoken hgeneration => exact absurd h (accept_taken htoken hgeneration).finished
    · rfl

end ConnectCall

namespace TimedCall

variable {crypto : Crypto} {hasSigner : Bool} {t : TimedCall} {i : TimedRound}

/-- A call that is over stays so. -/
theorem step_over (crypto : Crypto) (hasSigner : Bool) (i : TimedRound)
    (h : t.call.outcome ≠ none) :
    (t.step crypto hasSigner i).1.call = t.call ∧ t.challenged crypto i = false := by
  obtain ⟨outcome, houtcome⟩ := Option.ne_none_iff_exists'.mp h
  constructor
  · unfold step ConnectCall.round
    dsimp only
    rw [houtcome]
  · unfold challenged
    rw [houtcome]
    rfl

/-- A challenge is answered at once. -/
theorem step_challenge (hasSigner : Bool) {presence : PresenceResponse} {fp : String}
    {challenge : DeviceAuthChallenge} (hopen : t.call.outcome = none)
    (hreceive : t.call.receive crypto (t.roundAt i) = .ok (presence, fp))
    (hchallenge : presence.deviceAuthChallenge = some challenge) :
    t.challenged crypto i = true ∧ (t.step crypto hasSigner i).1 =
      ⟨(t.call.answerChallenge crypto hasSigner (t.roundAt i) presence challenge fp).1,
        t.clock + i.elapsed⟩ := by
  have hchallenged : t.challenged crypto i = true := by
    unfold challenged
    rw [hopen, hreceive]
    dsimp only
    rw [hchallenge]
    rfl
  have hround : t.call.round crypto hasSigner (t.roundAt i) =
      t.call.answerChallenge crypto hasSigner (t.roundAt i) presence challenge fp := by
    unfold ConnectCall.round
    rw [hopen, hreceive]
    dsimp only
    rw [hchallenge]
  refine ⟨hchallenged, ?_⟩
  unfold step
  dsimp only
  rw [hround, hchallenged, Bool.not_true, Bool.and_false]
  rfl

/-- A call that goes on was challenged, or pauses in front of its deadline. -/
theorem step_open (h : (t.step crypto hasSigner i).1.call.outcome = none) :
    t.call.outcome = none ∧
      (t.challenged crypto i = true ∧
          (t.step crypto hasSigner i).1.call.approvalDeadline = t.call.approvalDeadline ∧
          t.clock ≤ (t.step crypto hasSigner i).1.clock ∨
        t.challenged crypto i = false ∧ ∃ now, t.clock ≤ now ∧
          (t.step crypto hasSigner i).1.clock = now + pollInterval ∧
          (t.step crypto hasSigner i).1.call.approvalDeadline =
            some (t.call.approvalDeadline.getD (now + ConnectCall.connectTimeout)) ∧
          now < t.call.approvalDeadline.getD (now + ConnectCall.connectTimeout)) := by
  by_cases hopen : t.call.outcome = none
  · refine ⟨hopen, ?_⟩
    cases hreceive : t.call.receive crypto (t.roundAt i) with
    | error error =>
      have hround : t.call.round crypto hasSigner (t.roundAt i) = (t.call.fail error, []) := by
        unfold ConnectCall.round
        rw [hopen, hreceive]
      unfold step at h
      dsimp only at h
      rw [hround] at h
      exact absurd h nofun
    | ok received =>
      obtain ⟨presence, fp⟩ := received
      cases hchallenge : presence.deviceAuthChallenge with
      | some challenge =>
        obtain ⟨hchallenged, hstep⟩ := step_challenge hasSigner hopen hreceive hchallenge
        refine Or.inl ⟨hchallenged, ?_, ?_⟩
        · rw [hstep]
          exact ConnectCall.answerChallenge_approvalDeadline
        · rw [hstep]
          exact Nat.le_add_right _ _
      | none =>
        have hunchallenged : t.challenged crypto i = false := by
          unfold challenged
          rw [hopen, hreceive]
          dsimp only
          rw [hchallenge]
          rfl
        have hround := ConnectCall.round_waits hreceive hchallenge h
        have hstep : (t.step crypto hasSigner i).1 =
            ⟨t.call.pend (t.roundAt i) presence, t.clock + i.elapsed + pollInterval⟩ := by
          have hgoes : (t.call.pend (t.roundAt i) presence).outcome = none := by
            have hcall : (t.step crypto hasSigner i).1.call = t.call.pend (t.roundAt i) presence :=
              congrArg Prod.fst hround
            rw [← hcall]
            exact h
          unfold step
          dsimp only
          rw [hround, hunchallenged, hopen, hgoes]
          rfl
        rw [hstep] at h ⊢
        obtain ⟨hdeadline, hbefore⟩ := ConnectCall.pend_open h
        exact Or.inr ⟨hunchallenged, t.clock + i.elapsed, Nat.le_add_right _ _, rfl, hdeadline,
          hbefore⟩
  · rw [(step_over crypto hasSigner i hopen).1] at h
    exact absurd h hopen

/-! ### Whole exchanges -/

/-- How often the phone has been challenged. -/
def challenges (crypto : Crypto) (events : List (Event TimedCall TimedRound (List ConnectEffect))) :
    ℕ :=
  events.countP fun e => e.before.challenged crypto e.input

/-- What the rounds before tell about a call that goes on: it was challenged or has paused in
each, and the pauses have brought the clock towards the deadline. -/
structure Progress (crypto : Crypto)
    (pre : List (Event TimedCall TimedRound (List ConnectEffect))) (t : TimedCall) (pauses : ℕ) :
    Prop where
  rounds : pre.length = challenges crypto pre + pauses
  fresh : t.call.approvalDeadline = none → pauses = 0
  paced : ∀ deadline, t.call.approvalDeadline = some deadline →
    deadline + pauses * pollInterval ≤ t.clock + ConnectCall.connectTimeout
  bounded : pauses ≤ ConnectCall.connectTimeout / pollInterval + 1

theorem challenges_concat (pre : List (Event TimedCall TimedRound (List ConnectEffect)))
    (e : Event TimedCall TimedRound (List ConnectEffect)) :
    challenges crypto (pre ++ [e]) =
      challenges crypto pre + if e.before.challenged crypto e.input then 1 else 0 := by
  rw [challenges, List.countP_append, List.countP_singleton]
  rfl

/-- A round of a call that goes on keeps it. -/
theorem Progress.concat {pre : List (Event TimedCall TimedRound (List ConnectEffect))}
    {e : Event TimedCall TimedRound (List ConnectEffect)} {pauses : ℕ}
    (hp : Progress crypto pre e.before pauses)
    (hafter : e.after = (e.before.step crypto hasSigner e.input).1)
    (h : e.after.call.outcome = none) :
    ∃ pauses', Progress crypto (pre ++ [e]) e.after pauses' := by
  obtain ⟨hrounds, hfresh, hpaced, hbounded⟩ := hp
  rw [hafter] at h ⊢
  obtain ⟨-, ⟨hchallenged, hsame, hclock⟩ | ⟨hunchallenged, now, hnow, hclock, hset, hbefore⟩⟩ :=
    step_open h
  · refine ⟨pauses, ?_, ?_, ?_, hbounded⟩
    · rw [List.length_append, challenges_concat, hchallenged, hrounds, List.length_singleton]
      simp only [if_true]
      omega
    · rw [hsame]
      exact hfresh
    · intro deadline hdeadline
      rw [hsame] at hdeadline
      exact (hpaced deadline hdeadline).trans (Nat.add_le_add_right hclock _)
  · refine ⟨pauses + 1, ?_, ?_, ?_, ?_⟩
    · rw [List.length_append, challenges_concat, hunchallenged, hrounds, List.length_singleton]
      simp only [Bool.false_eq_true, if_false]
      omega
    · rw [hset]
      exact nofun
    · intro deadline hdeadline
      rw [hset] at hdeadline
      obtain rfl := Option.some.inj hdeadline
      rw [hclock, Nat.add_mul]
      cases hold : e.before.call.approvalDeadline with
      | none =>
        rw [hfresh hold]
        dsimp only [Option.getD_none]
        omega
      | some deadline =>
        have hreached := hpaced deadline hold
        dsimp only [Option.getD_some]
        omega
    · cases hold : e.before.call.approvalDeadline with
      | none =>
        rw [hfresh hold]
        exact Nat.le_add_left _ _
      | some deadline =>
        have hreached := hpaced deadline hold
        rw [hold, Option.getD_some] at hbefore
        have hle : pauses ≤ ConnectCall.connectTimeout / pollInterval := by
          rw [Nat.le_div_iff_mul_le (by decide)]
          omega
        omega

variable {nonce : Except String (List UInt8)} {publicKey : Except String String} {req : ConnectReq}
  {clock : ℕ}

/-- The first rounds of an exchange. -/
def firstRounds (rounds : ℕ → TimedRound) (n : ℕ) : List TimedRound := (List.range n).map rounds

theorem length_events (rounds : List TimedRound) :
    ((machine crypto hasSigner nonce publicKey req clock).events rounds).length =
      rounds.length := by
  rw [← List.length_map (f := Event.input), Machine.events, Machine.map_input_eventsFrom]

theorem length_firstRounds (rounds : ℕ → TimedRound) (n : ℕ) :
    (firstRounds rounds n).length = n := by
  rw [firstRounds, List.length_map, List.length_range]

/-- No round has more than one challenge. -/
theorem challenges_le (rounds : ℕ → TimedRound) (n : ℕ) :
    challenges crypto ((machine crypto hasSigner nonce publicKey req clock).events
      (firstRounds rounds n)) ≤ n := by
  refine List.countP_le_length.trans ?_
  rw [length_events, length_firstRounds]

/-- A call that goes on after some rounds was challenged in all of them but as many as fit into
the time up to the deadline. -/
theorem rounds_le (rounds : List TimedRound)
    (h : ((machine crypto hasSigner nonce publicKey req clock).run rounds).call.outcome = none) :
    rounds.length ≤
      challenges crypto ((machine crypto hasSigner nonce publicKey req clock).events rounds) +
        (ConnectCall.connectTimeout / pollInterval + 1) := by
  have hinit : Progress crypto [] (machine crypto hasSigner nonce publicKey req clock).init 0 :=
    ⟨rfl, fun _ => rfl, fun deadline hdeadline =>
      absurd (ConnectCall.start_approvalDeadline.symm.trans hdeadline) nofun, Nat.zero_le _⟩
  have hstep : ∀ pre t i, (t.call.outcome = none → ∃ pauses, Progress crypto pre t pauses) → True →
      (t.step crypto hasSigner i).1.call.outcome = none → ∃ pauses,
        Progress crypto (pre ++ [(machine crypto hasSigner nonce publicKey req clock).eventAt t i])
          (t.step crypto hasSigner i).1 pauses := by
    intro pre t i hprogress _ hgoes
    obtain ⟨pauses, hp⟩ := hprogress (step_open hgoes).1
    exact Progress.concat (e := (machine crypto hasSigner nonce publicKey req clock).eventAt t i) hp
      rfl hgoes
  have hrun :
      ((machine crypto hasSigner nonce publicKey req clock).run rounds).call.outcome = none →
      ∃ pauses, Progress crypto
        ((machine crypto hasSigner nonce publicKey req clock).events rounds)
        ((machine crypto hasSigner nonce publicKey req clock).run rounds) pauses :=
    (machine crypto hasSigner nonce publicKey req clock).history_invariant
      (I := fun pre t => t.call.outcome = none → ∃ pauses, Progress crypto pre t pauses)
      (p := fun _ _ => True) (fun _ => ⟨0, hinit⟩) hstep fun _ _ _ _ => trivial
  obtain ⟨pauses, hp⟩ := hrun h
  have hrounds := hp.rounds
  have hbounded := hp.bounded
  rw [length_events] at hrounds
  omega

theorem firstRounds_succ (rounds : ℕ → TimedRound) (n : ℕ) :
    firstRounds rounds (n + 1) = firstRounds rounds n ++ [rounds n] := by
  rw [firstRounds, List.range_succ, List.map_append]
  rfl

/-- A call that is over is not challenged any more. -/
theorem challenges_of_returned (rounds : ℕ → TimedRound) {n : ℕ}
    (h : ((machine crypto hasSigner nonce publicKey req clock).run
      (firstRounds rounds n)).call.outcome ≠ none) (later : ℕ) :
    ((machine crypto hasSigner nonce publicKey req clock).run
        (firstRounds rounds (n + later))).call.outcome ≠ none ∧
      challenges crypto ((machine crypto hasSigner nonce publicKey req clock).events
        (firstRounds rounds (n + later))) ≤ n := by
  induction later with
  | zero =>
    exact ⟨h, challenges_le rounds n⟩
  | succ later ih =>
    obtain ⟨hover, hle⟩ := ih
    obtain ⟨hsame, hquiet⟩ := step_over crypto hasSigner (rounds (n + later)) hover
    rw [← Nat.add_assoc, firstRounds_succ]
    constructor
    · rw [Machine.run_concat]
      exact hsame.symm ▸ hover
    · rw [Machine.events_concat, challenges_concat]
      have hzero : (if ((machine crypto hasSigner nonce publicKey req clock).run
          (firstRounds rounds (n + later))).challenged crypto (rounds (n + later)) then 1 else 0) =
            0 := by
        rw [hquiet]
        rfl
      exact (Nat.add_le_add_left hzero.le _).trans hle

/-- The phone returns after a number of requests that is bounded by a constant and the number of
pauses up to the deadline, exactly for the servers that challenge it a bounded number of times. -/
theorem returns_within_iff (crypto : Crypto) (hasSigner : Bool) (nonce : Except String (List UInt8))
    (publicKey : Except String String) (req : ConnectReq) (clock : ℕ)
    (servers : Set (ℕ → TimedRound)) :
    (∃ k, ∀ rounds ∈ servers, ∃ n ≤ k + ConnectCall.connectTimeout / pollInterval,
      ((machine crypto hasSigner nonce publicKey req clock).run
        (firstRounds rounds n)).call.outcome ≠ none) ↔
    ∃ k, ∀ rounds ∈ servers, ∀ n,
      challenges crypto ((machine crypto hasSigner nonce publicKey req clock).events
        (firstRounds rounds n)) ≤ k := by
  constructor
  · rintro ⟨k, hk⟩
    refine ⟨k + ConnectCall.connectTimeout / pollInterval, fun rounds hrounds later => ?_⟩
    obtain ⟨n, hn, hreturned⟩ := hk rounds hrounds
    obtain hle | hle := Nat.le_total later n
    · exact (challenges_le rounds later).trans (hle.trans hn)
    · obtain ⟨extra, rfl⟩ := Nat.le.dest hle
      exact (challenges_of_returned rounds hreturned extra).2.trans hn
  · rintro ⟨k, hk⟩
    refine ⟨k + 2, fun rounds hrounds => ⟨_, Nat.le_refl _, fun hopen => ?_⟩⟩
    have hle := rounds_le _ hopen
    have hfew := hk rounds hrounds (k + 2 + ConnectCall.connectTimeout / pollInterval)
    rw [length_firstRounds] at hle
    omega

/-- The challenge of a PC that does not ask its user. -/
def silentChallenge : DeviceAuthChallenge where
  challengeId := "1"
  challenge := "challenge"
  pcCertificateFingerprint := "01"
  pairingCode := pairingCode hexCrypto
    (buildDeviceAuthTranscript "phone" "pc" "01" "key" "" "1" "challenge")
  requiresApproval := false
  expiresInSeconds := 60

/-- The answer that carries it. -/
def challengeResponse : PresenceResponse where
  deviceId := "pc"
  streamerName := "PC"
  isOffline := false
  deviceRegistered := some true
  sessionToken := none
  sessionGeneration := none
  pendingRequestId := none
  deviceAuthChallenge := some silentChallenge
  pcCertificateFingerprint := some "01"
  pcOutputVolume := none

/-- A PC the phone trusts answers with the challenge. -/
def challengeRound : TimedRound where
  elapsed := 0
  answers := {
    now := 0
    served := .ok ⟨some [1], .ok challengeResponse⟩
    trusted := fun _ => .ok (some "01")
    confirm := .ok false
    sign := .ok "signature"
    rebuild := .ok ()
    remember := .ok ()
    disconnect := .ok () }

/-- The Connect of a phone. -/
def phoneRequest : ConnectReq := ⟨"phone", "Phone", none, none, none, none⟩

/-- The phone's call once it has answered the challenge. -/
def answeredCall : ConnectCall where
  req := { phoneRequest with
    deviceAuth := some ⟨"key", "", some "1", some "signature", none⟩ }
  approvalDeadline := none
  pinned := some "01"
  candidatePcIdentity := none
  outcome := none

/-- The challenge gets through, also to a client that insists on the certificate. -/
theorem receive_challengeRound {c : ConnectCall} {r : Round}
    (hserved : r.served = challengeRound.answers.served)
    (hpinned : c.pinned = none ∨ c.pinned = some "01") :
    c.receive hexCrypto r = .ok (challengeResponse, "01") := by
  have hfingerprint : sha256Fingerprint hexCrypto [1] = "01" := by decide
  have hlower : asciiLower "01" = "01" := by decide
  have hverify : ConnectCall.verifyPresenceCertificate challengeResponse "01" = .ok "01" := rfl
  have hsend : c.send hexCrypto r = .ok ⟨some [1], .ok challengeResponse⟩ := by
    unfold ConnectCall.send
    rw [hserved]
    obtain hpinned | hpinned := hpinned
    · rw [hpinned]
      rfl
    · rw [hpinned]
      exact if_pos (hlower.trans hfingerprint.symm)
  unfold ConnectCall.receive
  rw [hsend]
  dsimp only
  rw [hfingerprint, hverify]

/-- A call with the identity of the phone answers it. -/
theorem step_silentChallenge {auth : DeviceAuthRequest} (hopen : t.call.outcome = none)
    (hpinned : t.call.pinned = none ∨ t.call.pinned = some "01")
    (hid : t.call.req.deviceId = "phone") (hauth : t.call.req.deviceAuth = some auth)
    (hkey : auth.publicKey = "key") (hnonce : auth.phoneNonce = "") :
    (t.step hexCrypto true challengeRound).1.call =
      t.call.proceed (t.roundAt challengeRound) "pc" auth "1" "01" (some "01") false := by
  have hsame : EqIgnoreAsciiCase "01" "01" := rfl
  have hcode : silentChallenge.pairingCode = pairingCode hexCrypto (buildDeviceAuthTranscript
      t.call.req.deviceId challengeResponse.deviceId "01" auth.publicKey auth.phoneNonce
      silentChallenge.challengeId silentChallenge.challenge) := by
    rw [hid, hkey, hnonce]
    rfl
  have hreceive : t.call.receive hexCrypto (t.roundAt challengeRound) =
      .ok (challengeResponse, "01") := receive_challengeRound rfl hpinned
  rw [(step_challenge true hopen hreceive rfl).2]
  exact ConnectCall.answerChallenge_trusted hsame hauth hcode rfl hsame rfl

/-- The challenge is answered in the first round and in each one after it. -/
theorem step_challengeRound (t : TimedCall)
    (h : t.call = ConnectCall.start hexCrypto true (.ok []) (.ok "key") phoneRequest ∨
      t.call = answeredCall) : (t.step hexCrypto true challengeRound).1.call = answeredCall := by
  obtain ⟨call, clock⟩ := t
  obtain rfl | rfl := h
  · rw [step_silentChallenge rfl (Or.inl rfl) rfl rfl rfl rfl]
    rfl
  · rw [step_silentChallenge rfl (Or.inr rfl) rfl rfl rfl rfl]
    rfl

/-- A trusted PC that goes on with its challenge keeps the phone asking. -/
theorem not_returns_challengeRound :
    ¬∀ (crypto : Crypto) (hasSigner : Bool) (nonce : Except String (List UInt8))
      (publicKey : Except String String) (req : ConnectReq) (clock : ℕ),
      ∃ k, ∀ rounds : ℕ → TimedRound, ∃ n ≤ k + ConnectCall.connectTimeout / pollInterval,
        ((machine crypto hasSigner nonce publicKey req clock).run
          (firstRounds rounds n)).call.outcome ≠ none := by
  intro h
  obtain ⟨k, hk⟩ := h hexCrypto true (.ok []) (.ok "key") phoneRequest 0
  obtain ⟨n, -, hreturned⟩ := hk fun _ => challengeRound
  have hgoes : ∀ n, ((machine hexCrypto true (.ok []) (.ok "key") phoneRequest 0).run
        (firstRounds (fun _ => challengeRound) n)).call =
          ConnectCall.start hexCrypto true (.ok []) (.ok "key") phoneRequest ∨
      ((machine hexCrypto true (.ok []) (.ok "key") phoneRequest 0).run
        (firstRounds (fun _ => challengeRound) n)).call = answeredCall := by
    intro n
    induction n with
    | zero => exact Or.inl rfl
    | succ n ih =>
      rw [firstRounds_succ, Machine.run_concat]
      exact Or.inr (step_challengeRound _ ih)
  obtain hcall | hcall := hgoes n
  · rw [hcall] at hreturned
    exact hreturned rfl
  · rw [hcall] at hreturned
    exact hreturned rfl

end TimedCall

end Gemacast.Control
