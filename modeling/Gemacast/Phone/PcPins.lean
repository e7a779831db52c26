import Gemacast.Phone.PcIdentityConfirmation

/-!
# No certificate is pinned unseen

Over any order of calls, taps, failed writes and restarts, what is pinned for a PC was shown to
the user and approved in time, and since the PC was forgotten last. A pin is never replaced by
another one, and one tap answers one pairing.
-/

namespace Gemacast.Phone

open Gemacast.Core Gemacast.Control

/-- What happens to the main activity. -/
inductive ActivityInput
  | confirmPcIdentity (request : ConfirmRequest) (nowMillis : ℕ)
  | pollPcIdentityConfirmation (pcId fingerprint pairingCode : String) (nowMillis : ℕ)
  | cancelPcIdentityConfirmation (pcId fingerprint pairingCode : String)
  | tap (key : PcIdentityConfirmationKey) (approved : Bool) (nowMillis : ℕ)
  | rememberPcIdentity (pcId fingerprint : String) (written : Bool)
  | forgetPcIdentity (pcId : String) (written : Bool)
  /-- The activity is destroyed and made again. -/
  | recreate
  /-- The process is killed and started again. -/
  | restart
  deriving DecidableEq, Repr

/-- What it answers. -/
inductive ActivityAnswer
  | text (answer : String)
  | tapped (counts : Bool)
  | silent
  deriving DecidableEq, Repr

/-- Something that happened to the main activity. -/
abbrev ActivityEvent := Event MainActivity ActivityInput ActivityAnswer

namespace MainActivity

/-- One call, tap or restart. -/
def step (a : MainActivity) : ActivityInput → MainActivity × ActivityAnswer
  | .confirmPcIdentity request nowMillis =>
    (a.confirmPcIdentity request nowMillis).map id .text
  | .pollPcIdentityConfirmation pcId fingerprint pairingCode nowMillis =>
    (a.pollPcIdentityConfirmation pcId fingerprint pairingCode nowMillis).map id .text
  | .cancelPcIdentityConfirmation pcId fingerprint pairingCode =>
    (a.cancelPcIdentityConfirmation pcId fingerprint pairingCode).map id .text
  | .tap key approved nowMillis => (a.tap key approved nowMillis).map id .tapped
  | .rememberPcIdentity pcId fingerprint written =>
    (a.rememberPcIdentity pcId fingerprint written).map id .text
  | .forgetPcIdentity pcId written => (a.forgetPcIdentity pcId written).map id .text
  | .recreate => (new a.trustedPcs a.file, .silent)
  | .restart => (new a.file a.file, .silent)

/-- The main activity from what the file holds when the process starts first. -/
def machine (file : Table String String) : Machine MainActivity ActivityInput ActivityAnswer :=
  ⟨new file file, step⟩

section Events

/-- The dialog of a confirmation is shown. -/
def Shows (key : PcIdentityConfirmationKey) (nowMillis : ℕ) (e : ActivityEvent) : Prop :=
  ∃ request, e.input = .confirmPcIdentity request nowMillis ∧
    e.after.dialogs = e.before.dialogs ++ [confirmationDialog request.pcName key]

/-- The user approves what a dialog asks about. -/
def Approves (key : PcIdentityConfirmationKey) (nowMillis : ℕ) (e : ActivityEvent) : Prop :=
  e.input = .tap key true nowMillis ∧ e.output = .tapped true

/-- A PC is forgotten, in the file, too. -/
def Forgets (pcId : String) (e : ActivityEvent) : Prop :=
  e.input = .forgetPcIdentity pcId true ∧ e.output = .text "OK"

/-- The pairing fetches the approval of the user. -/
def Fetches (key : PcIdentityConfirmationKey) (nowMillis : ℕ) (e : ActivityEvent) : Prop :=
  (∃ pcId fingerprint pairingCode,
      e.input = .pollPcIdentityConfirmation pcId fingerprint pairingCode nowMillis ∧
      pcIdentityConfirmationKey pcId fingerprint pairingCode = .ok key) ∧
    e.output = .text "APPROVED"

/-- A dialog was shown, and the user approved it before it was over. -/
def ApprovedInTime (key : PcIdentityConfirmationKey) (expires : ℕ) (pre : List ActivityEvent)
    (e : ActivityEvent) : Prop :=
  ∃ b ∈ pre, ∃ shown now, Shows key shown b ∧ Approves key now e ∧
    expires = shown + defaultTimeoutMillis ∧ now < expires

/-- The user has approved the certificate for the PC, and not forgotten the PC since. -/
def Approved (h : List ActivityEvent) (pcId fingerprint : String) : Prop :=
  ∃ pre e post key expires, h = pre ++ e :: post ∧ ApprovedInTime key expires pre e ∧
    key.pcId = pcId ∧ key.fingerprint = fingerprint ∧ ∀ f ∈ post, ¬Forgets pcId f

/-- The pairing is told that the user has approved the PC. -/
def AnswersApproved (key : PcIdentityConfirmationKey) (nowMillis : ℕ) (e : ActivityEvent) : Prop :=
  Fetches key nowMillis e ∨
    (∃ request, e.input = .confirmPcIdentity request nowMillis ∧
      pcIdentityConfirmationKey request.pcId request.fingerprint request.pairingCode = .ok key) ∧
      e.output = .text "APPROVED"

/-- Somebody vouches for the certificate: it is the one the file held first, or the one the user
has approved, and the PC was not forgotten since. -/
def Vouched (file : Table String String) (h : List ActivityEvent) (pcId fingerprint : String) :
    Prop :=
  ∃ known, EqIgnoreAsciiCase known fingerprint ∧
    (file.lookup pcId = some known ∧ (∀ f ∈ h, ¬Forgets pcId f) ∨ Approved h pcId known)

variable {file : Table String String} {h : List ActivityEvent} {e : ActivityEvent}
  {pcId fingerprint : String}

theorem Approved.concat (hold : Approved h pcId fingerprint) (he : ¬Forgets pcId e) :
    Approved (h ++ [e]) pcId fingerprint := by
  obtain ⟨pre, a, post, key, expires, rfl, htime, hpc, hfp, hpost⟩ := hold
  refine ⟨pre, a, post ++ [e], key, expires, by simp, htime, hpc, hfp, fun f hf => ?_⟩
  obtain hmem | hlast := List.mem_append.mp hf
  · exact hpost f hmem
  · rwa [List.mem_singleton.mp hlast]

theorem Vouched.concat (hold : Vouched file h pcId fingerprint) (he : ¬Forgets pcId e) :
    Vouched file (h ++ [e]) pcId fingerprint := by
  obtain ⟨known, heq, ⟨hfirst, hnone⟩ | hknown⟩ := hold
  · refine ⟨known, heq, .inl ⟨hfirst, fun f hf => ?_⟩⟩
    obtain hmem | hlast := List.mem_append.mp hf
    · exact hnone f hmem
    · rwa [List.mem_singleton.mp hlast]
  · exact ⟨known, heq, .inr (hknown.concat he)⟩

/-- What the events of a run say of the state they lead to. -/
structure Witnessed (file : Table String String) (h : List ActivityEvent) (a : MainActivity) :
    Prop where
  /-- Dialogs wait as long as they do. -/
  timeout : a.confirmation.timeoutMillis = defaultTimeoutMillis
  /-- The confirmation in progress was shown. -/
  shown : ∀ p, a.confirmation.pending = some p → ∃ b ∈ h, ∃ shown, Shows p.key shown b ∧
    p.expiresAtMillis = shown + defaultTimeoutMillis
  /-- An approval nobody has fetched is one the user gave. -/
  approved : ∀ p, a.confirmation.pending = some p → p.result = .approved →
    ∃ pre e post, h = pre ++ e :: post ∧ ApprovedInTime p.key p.expiresAtMillis pre e ∧
      ∀ f ∈ post, ∀ now, ¬Fetches p.key now f
  /-- So is the one that waits for a pin. -/
  pending : ∀ pcId fingerprint, a.pendingPcId = some pcId →
    a.pendingPcFingerprint = some fingerprint → Approved h pcId fingerprint
  /-- The pins of the process. -/
  pinned : ∀ pcId fingerprint, a.trustedPcs.lookup pcId = some fingerprint →
    Vouched file h pcId fingerprint
  /-- The pins in the file. -/
  filed : ∀ pcId fingerprint, a.file.lookup pcId = some fingerprint →
    Vouched file h pcId fingerprint

theorem Witnessed.new (file : Table String String) : Witnessed file [] (new file file) where
  timeout := rfl
  shown := by rintro p ⟨⟩
  approved := by rintro p ⟨⟩
  pending := by rintro pcId fingerprint ⟨⟩
  pinned pcId fingerprint hpin := ⟨fingerprint, rfl, .inl ⟨hpin, by rintro f ⟨⟩⟩⟩
  filed pcId fingerprint hpin := ⟨fingerprint, rfl, .inl ⟨hpin, by rintro f ⟨⟩⟩⟩

variable {a : MainActivity}

/-- An event after which nobody is forgotten and no approval is fetched. -/
theorem Witnessed.concat (hw : Witnessed file h a) (hforget : ∀ pcId, ¬Forgets pcId e)
    (hfetch : ∀ p, a.confirmation.pending = some p → ∀ now, ¬Fetches p.key now e) :
    Witnessed file (h ++ [e]) a where
  timeout := hw.timeout
  shown p hp := by
    obtain ⟨b, hb, shown, hshown⟩ := hw.shown p hp
    exact ⟨b, List.mem_append_left _ hb, shown, hshown⟩
  approved p hp hresult := by
    obtain ⟨pre, e', post, rfl, htime, hpost⟩ := hw.approved p hp hresult
    refine ⟨pre, e', post ++ [e], by simp, htime, fun f hf => ?_⟩
    obtain hmem | hlast := List.mem_append.mp hf
    · exact hpost f hmem
    · rw [List.mem_singleton.mp hlast]
      exact hfetch p hp
  pending pcId fingerprint hpc hfp := (hw.pending pcId fingerprint hpc hfp).concat (hforget pcId)
  pinned pcId fingerprint hpin := (hw.pinned pcId fingerprint hpin).concat (hforget pcId)
  filed pcId fingerprint hpin := (hw.filed pcId fingerprint hpin).concat (hforget pcId)

/-- Without a confirmation there is less to vouch for. -/
theorem Witnessed.drop (hw : Witnessed file h a) {confirmation : PcIdentityConfirmationState}
    (htimeout : confirmation.timeoutMillis = a.confirmation.timeoutMillis)
    (hnone : confirmation.pending = none) : Witnessed file h { a with confirmation } where
  timeout := htimeout.trans hw.timeout
  shown p hp := by cases hnone.symm.trans hp
  approved p hp := by cases hnone.symm.trans hp
  pending := hw.pending
  pinned := hw.pinned
  filed := hw.filed

end Events

section Confirm

open PcIdentityConfirmationState

variable {s : PcIdentityConfirmationState} {key : PcIdentityConfirmationKey} {now : ℕ}

/-- A confirmation is started, or the answer is that of the one in progress. -/
theorem begin_cases (s : PcIdentityConfirmationState) (key : PcIdentityConfirmationKey) (now : ℕ) :
    s.begin key now =
        ({ s with pending := some ⟨key, now + s.timeoutMillis, .pending⟩ }, .ok .started) ∨
      ∃ answer, s.begin key now = (s, answer) ∧ answer ≠ .ok .started ∧
        (answer = .ok .approved → ∃ p, s.pending = some p ∧ p.key = key ∧
          p.result = .approved ∧ now < p.expiresAtMillis) := by
  unfold PcIdentityConfirmationState.begin
  split
  · exact .inl rfl
  · next current hpending =>
    split
    · exact .inl rfl
    · next hopen =>
      refine .inr ?_
      split
      · exact ⟨_, rfl, by simp, by simp⟩
      · next hkey =>
        split
        · exact ⟨_, rfl, by simp, by simp⟩
        · next hresult =>
          exact ⟨_, rfl, by simp, fun _ =>
            ⟨current, hpending, not_not.mp hkey, hresult, not_le.mp hopen⟩⟩
        · exact ⟨_, rfl, by simp, by simp⟩
        · exact ⟨_, rfl, by simp, by simp⟩

/-- An answer is taken when there is a confirmation of the key that is not over. -/
theorem complete_cases (s : PcIdentityConfirmationState) (key : PcIdentityConfirmationKey)
    (approved : Bool) (now : ℕ) :
    (∃ p, s.pending = some p ∧ p.key = key ∧ now < p.expiresAtMillis ∧
        s.complete key approved now =
          ({ s with
              pending := some { p with result := if approved then .approved else .rejected } },
            true)) ∨
      s.complete key approved now = (s, false) ∨
      s.complete key approved now = ({ s with pending := none }, false) := by
  unfold complete
  split
  · exact .inr (.inl rfl)
  · next current hpending =>
    split
    · split
      · exact .inr (.inr rfl)
      · exact .inr (.inl rfl)
    · next hopen =>
      rw [not_or, not_not, not_le] at hopen
      exact .inl ⟨current, hpending, hopen.1, hopen.2, rfl⟩

/-- A poll leaves the confirmation as it is and says that it waits, or of another one, or drops
it; an approval is that of the user. -/
theorem poll_cases (s : PcIdentityConfirmationState) (key : PcIdentityConfirmationKey) (now : ℕ) :
    (s.poll key now).1 = s ∧ (s.poll key now).2 ≠ .approved ∨
      (s.poll key now).1 = { s with pending := none } ∧
        ((s.poll key now).2 = .approved → ∃ p, s.pending = some p ∧ p.key = key ∧
          p.result = .approved ∧ now < p.expiresAtMillis) := by
  unfold poll
  split
  · exact .inl ⟨rfl, by simp⟩
  · next current hpending =>
    split
    · exact .inl ⟨rfl, by simp⟩
    · next hkey =>
      split
      · exact .inr ⟨rfl, by simp⟩
      · next hopen =>
        split
        · exact .inr ⟨rfl, fun hresult =>
            ⟨current, hpending, not_not.mp hkey, hresult, not_le.mp hopen⟩⟩
        · next hresult =>
          refine .inl ⟨rfl, ?_⟩
          rw [not_not.mp hresult]
          simp

theorem name_eq_approved {result : PollResult} (h : result.name = "APPROVED") :
    result = .approved := by
  cases result <;> first | rfl | exact absurd h (by decide)

end Confirm

section Step

variable {file : Table String String} {h : List ActivityEvent} {a : MainActivity}

/-- The event of an input. -/
abbrev eventOf (a : MainActivity) (i : ActivityInput) : ActivityEvent :=
  ⟨a, i, (a.step i).2, (a.step i).1⟩

theorem Witnessed.confirmPcIdentity (hw : Witnessed file h a) (request : ConfirmRequest)
    (now : ℕ) : Witnessed file (h ++ [eventOf a (.confirmPcIdentity request now)])
      (a.confirmPcIdentity request now).1 := by
  have hkept := hw.concat (e := eventOf a (.confirmPcIdentity request now))
    (by rintro pcId ⟨⟨⟩, -⟩) (by rintro p - now ⟨⟨_, _, _, ⟨⟩, -⟩, -⟩)
  have hshows : ∀ key, (a.confirmPcIdentity request now).1.dialogs =
      a.dialogs ++ [confirmationDialog request.pcName key] →
        Shows key now (eventOf a (.confirmPcIdentity request now)) := by
    intro key hdialogs
    refine ⟨request, rfl, ?_⟩
    simp only [MainActivity.step, Prod.map_fst, id_eq]
    exact hdialogs
  unfold MainActivity.confirmPcIdentity at hshows ⊢
  split
  · exact hkept
  · next key hkey =>
    rw [hkey] at hshows
    dsimp only at hshows ⊢
    split_ifs with hchanged htrusted
    · exact hkept
    · exact hkept
    · rw [if_neg hchanged, if_neg htrusted] at hshows
      obtain hbegin | ⟨answer, hbegin, hanswer, -⟩ := begin_cases a.confirmation key now
      · rw [hbegin] at hshows ⊢
        refine ⟨hkept.timeout, ?_, ?_, hkept.pending, hkept.pinned, hkept.filed⟩
        · rintro p ⟨⟩
          refine ⟨_, List.mem_append_right _ (List.mem_singleton_self _), now, hshows key rfl, ?_⟩
          change now + a.confirmation.timeoutMillis = _
          rw [hw.timeout]
        · rintro p ⟨⟩ ⟨⟩
      · rw [hbegin]
        rcases answer with error | (_ | _ | _ | _ | _)
        · exact hkept
        · exact absurd rfl hanswer
        · exact hkept
        · exact hkept
        · exact hkept
        · exact hkept

theorem Witnessed.pollPcIdentityConfirmation (hw : Witnessed file h a)
    (pcId fingerprint pairingCode : String) (now : ℕ) :
    Witnessed file
      (h ++ [eventOf a (.pollPcIdentityConfirmation pcId fingerprint pairingCode now)])
      (a.pollPcIdentityConfirmation pcId fingerprint pairingCode now).1 := by
  have hforget : ∀ pcId', ¬Forgets pcId'
      (eventOf a (.pollPcIdentityConfirmation pcId fingerprint pairingCode now)) := by
    rintro pcId' ⟨⟨⟩, -⟩
  have hfetches : ∀ key now', Fetches key now'
      (eventOf a (.pollPcIdentityConfirmation pcId fingerprint pairingCode now)) →
      pcIdentityConfirmationKey pcId fingerprint pairingCode = .ok key ∧
        (a.pollPcIdentityConfirmation pcId fingerprint pairingCode now).2 = "APPROVED" := by
    rintro key now' ⟨⟨_, _, _, ⟨⟩, hkey⟩, hanswer⟩
    simp only [MainActivity.step, Prod.map_snd] at hanswer
    exact ⟨hkey, ActivityAnswer.text.inj hanswer⟩
  unfold MainActivity.pollPcIdentityConfirmation at hfetches ⊢
  cases hkey : pcIdentityConfirmationKey pcId fingerprint pairingCode with
  | error error =>
    refine hw.concat hforget fun p hp now' hfetch => ?_
    cases hkey.symm.trans (hfetches _ _ hfetch).1
  | ok key =>
    rw [hkey] at hfetches
    dsimp only at hfetches ⊢
    obtain ⟨hsame, hanswer⟩ | ⟨hdropped, -⟩ := poll_cases a.confirmation key now
    · rw [hsame]
      refine hw.concat hforget fun p hp now' hfetch => ?_
      exact hanswer (name_eq_approved (hfetches _ _ hfetch).2)
    · rw [hdropped]
      have hnone : Witnessed file h
          { a with confirmation := { a.confirmation with pending := none } } := hw.drop rfl rfl
      exact hnone.concat hforget (by rintro p ⟨⟩)

theorem Witnessed.cancelPcIdentityConfirmation (hw : Witnessed file h a)
    (pcId fingerprint pairingCode : String) :
    Witnessed file (h ++ [eventOf a (.cancelPcIdentityConfirmation pcId fingerprint pairingCode)])
      (a.cancelPcIdentityConfirmation pcId fingerprint pairingCode).1 := by
  have hkept : ∀ {b}, Witnessed file h b → Witnessed file
      (h ++ [eventOf a (.cancelPcIdentityConfirmation pcId fingerprint pairingCode)]) b := fun hb =>
    hb.concat (by rintro pcId' ⟨⟨⟩, -⟩) (by rintro p - now ⟨⟨_, _, _, ⟨⟩, -⟩, -⟩)
  unfold MainActivity.cancelPcIdentityConfirmation
  split
  · exact hkept hw
  · next key _ =>
    dsimp only
    unfold PcIdentityConfirmationState.cancel
    split
    · exact hkept hw
    · exact hkept (hw.drop rfl rfl)

theorem Witnessed.tap (hw : Witnessed file h a) (key : PcIdentityConfirmationKey)
    (approved : Bool) (now : ℕ) : Witnessed file (h ++ [eventOf a (.tap key approved now)])
      (a.tap key approved now).1 := by
  have hkept : ∀ {b}, Witnessed file h b →
      Witnessed file (h ++ [eventOf a (.tap key approved now)]) b := fun hb =>
    hb.concat (by rintro pcId ⟨⟨⟩, -⟩) (by rintro p - now ⟨⟨_, _, _, ⟨⟩, -⟩, -⟩)
  have happroves : (a.tap key approved now).2 = true → approved = true →
      Approves key now (eventOf a (.tap key approved now)) := by
    rintro hcounts rfl
    refine ⟨rfl, ?_⟩
    simp only [MainActivity.step, Prod.map_snd]
    rw [hcounts]
  unfold MainActivity.tap at happroves ⊢
  split
  · next hdialog =>
    rw [if_pos hdialog] at happroves
    obtain ⟨p, hp, rfl, hopen, hcomplete⟩ | hcomplete | hcomplete :=
      complete_cases a.confirmation key approved now
    · -- the answer counts: the dialog was shown, and is not over
      rw [hcomplete] at happroves ⊢
      obtain ⟨b, hb, shown, hshown, hexpires⟩ := hw.shown p hp
      have hshown' : ∀ p' : PendingConfirmation, p'.key = p.key →
          p'.expiresAtMillis = p.expiresAtMillis → ∃ b ∈ h ++ [eventOf a (.tap p.key approved now)],
            ∃ shown, Shows p'.key shown b ∧
              p'.expiresAtMillis = shown + defaultTimeoutMillis := by
        intro p' hkey hsame
        refine ⟨b, List.mem_append_left _ hb, shown, ?_, hsame.trans hexpires⟩
        rw [hkey]
        exact hshown
      have hin : approved = true → ApprovedInTime p.key p.expiresAtMillis h
          (eventOf a (.tap p.key approved now)) := by
        rintro rfl
        exact ⟨b, hb, shown, now, hshown, happroves rfl rfl, hexpires, hopen⟩
      cases approved with
      | false =>
        refine ⟨hw.timeout, ?_, ?_, (hkept hw).pending, (hkept hw).pinned, (hkept hw).filed⟩
        · rintro p' ⟨⟩
          exact hshown' _ rfl rfl
        · rintro p' ⟨⟩ ⟨⟩
      | true =>
        refine ⟨hw.timeout, ?_, ?_, ?_, (hkept hw).pinned, (hkept hw).filed⟩
        · rintro p' ⟨⟩
          exact hshown' _ rfl rfl
        · rintro p' ⟨⟩ -
          exact ⟨h, _, [], rfl, hin rfl, by rintro f ⟨⟩⟩
        · rintro pcId fingerprint ⟨⟩ ⟨⟩
          exact ⟨h, _, [], p.key, _, rfl, hin rfl, rfl, rfl, by rintro f ⟨⟩⟩
    · rw [hcomplete]
      exact hkept hw
    · rw [hcomplete]
      exact hkept (hw.drop rfl rfl)
  · exact hkept hw

/-- A certificate goes into the file as it is in the process. -/
theorem Witnessed.commit (hw : Witnessed file h a) (written : Bool) :
    Witnessed file h (a.commit written) := by
  unfold MainActivity.commit
  split
  · exact ⟨hw.timeout, hw.shown, hw.approved, hw.pending, hw.pinned, hw.pinned⟩
  · exact hw

/-- A certificate that somebody vouches for is pinned. -/
theorem Witnessed.pin (hw : Witnessed file h a) {pcId fingerprint : String}
    (hvouched : Vouched file h pcId fingerprint) :
    Witnessed file h { a with trustedPcs := a.trustedPcs.insert pcId fingerprint } := by
  refine ⟨hw.timeout, hw.shown, hw.approved, hw.pending, fun pcId' fingerprint' hpin => ?_,
    hw.filed⟩
  rw [Table.lookup_insert_eq] at hpin
  split at hpin
  · next heq =>
    obtain rfl := Option.some.inj hpin
    rwa [heq]
  · exact hw.pinned pcId' fingerprint' hpin

theorem Witnessed.rememberPcIdentity (hw : Witnessed file h a) (pcId fingerprint : String)
    (written : Bool) :
    Witnessed file (h ++ [eventOf a (.rememberPcIdentity pcId fingerprint written)])
      (a.rememberPcIdentity pcId fingerprint written).1 := by
  have hkept : ∀ {b}, Witnessed file h b → Witnessed file
      (h ++ [eventOf a (.rememberPcIdentity pcId fingerprint written)]) b := fun hb =>
    hb.concat (by rintro pcId' ⟨⟨⟩, -⟩) (by rintro p - now ⟨⟨_, _, _, ⟨⟩, -⟩, -⟩)
  unfold MainActivity.rememberPcIdentity
  dsimp only
  split_ifs with hdigits hchanged hunseen hfailed
  · exact hkept hw
  · exact hkept hw
  · exact hkept hw
  all_goals
    have hvouched : Vouched file h pcId (asciiLower fingerprint) := by
      cases hlookup : a.trustedPcs.lookup pcId with
      | some known =>
        obtain ⟨first, hfirst, hcase⟩ := hw.pinned pcId known hlookup
        refine ⟨first, hfirst.trans (not_not.mp fun hne => hchanged ⟨known, hlookup, hne⟩), hcase⟩
      | none =>
        rw [not_and_or, not_or, not_not, not_not] at hunseen
        obtain ⟨hpc, hfp⟩ := hunseen.resolve_left (not_not.mpr hlookup)
        exact ⟨_, rfl, .inr (hw.pending pcId _ hpc hfp)⟩
    have hpinned := (hw.pin hvouched).commit written
  · exact hkept hpinned
  · refine hkept ⟨hpinned.timeout, hpinned.shown, hpinned.approved, ?_, hpinned.pinned,
      hpinned.filed⟩
    rintro pcId' fingerprint' ⟨⟩

/-- A PC that is forgotten leaves the pins of the others. -/
theorem Witnessed.erase (hw : Witnessed file h a) (pcId : String) :
    Witnessed file h { a with trustedPcs := a.trustedPcs.erase pcId } := by
  refine ⟨hw.timeout, hw.shown, hw.approved, hw.pending, fun pcId' fingerprint hpin => ?_, hw.filed⟩
  rw [Table.lookup_erase_eq] at hpin
  split at hpin
  · cases hpin
  · exact hw.pinned pcId' fingerprint hpin

theorem Witnessed.forgetPcIdentity (hw : Witnessed file h a) (pcId : String) (written : Bool) :
    Witnessed file (h ++ [eventOf a (.forgetPcIdentity pcId written)])
      (a.forgetPcIdentity pcId written).1 := by
  have hforgets : ∀ pcId', Forgets pcId' (eventOf a (.forgetPcIdentity pcId written)) →
      pcId' = pcId ∧ written = true ∧ (a.forgetPcIdentity pcId written).2 = "OK" := by
    rintro pcId' ⟨⟨⟩, hanswer⟩
    simp only [MainActivity.step, Prod.map_snd] at hanswer
    exact ⟨rfl, rfl, ActivityAnswer.text.inj hanswer⟩
  have hfetch : ∀ key now, ¬Fetches key now (eventOf a (.forgetPcIdentity pcId written)) := by
    rintro key now ⟨⟨_, _, _, ⟨⟩, -⟩, -⟩
  unfold MainActivity.forgetPcIdentity at hforgets ⊢
  split
  · next hblank =>
    rw [if_pos hblank] at hforgets
    refine hw.concat (fun pcId' hforget => ?_) fun p _ => hfetch p.key
    have hanswer : "ERROR: PC ID cannot be empty" = "OK" := (hforgets pcId' hforget).2.2
    exact absurd hanswer (by decide)
  · next hnamed =>
    rw [if_neg hnamed] at hforgets
    have herased := hw.erase pcId
    cases written with
    | false =>
      exact herased.concat (fun pcId' hforget => by cases (hforgets pcId' hforget).2.1)
        fun p _ => hfetch p.key
    | true =>
      -- what is vouched for another PC is still vouched for, and of this one nothing is left
      have hothers : ∀ pcId', pcId' ≠ pcId → ¬Forgets pcId'
          (eventOf a (.forgetPcIdentity pcId true)) := fun pcId' hne hforget =>
        hne (hforgets pcId' hforget).1
      have hpins : ∀ pcId' fingerprint, (a.trustedPcs.erase pcId).lookup pcId' = some fingerprint →
          Vouched file (h ++ [eventOf a (.forgetPcIdentity pcId true)]) pcId' fingerprint := by
        intro pcId' fingerprint hpin
        rw [Table.lookup_erase_eq] at hpin
        split at hpin
        · cases hpin
        · next hne => exact (hw.pinned pcId' fingerprint hpin).concat (hothers pcId' hne)
      rw [if_neg (by simp), MainActivity.commit, if_pos rfl]
      dsimp only
      by_cases hpending : a.pendingPcId = some pcId
      · rw [if_pos hpending]
        refine ⟨hw.timeout, ?_, ?_, ?_, hpins, hpins⟩
        · rintro p ⟨⟩
        · rintro p ⟨⟩
        · rintro pcId' fingerprint ⟨⟩
      · rw [if_neg hpending]
        refine ⟨hw.timeout, ?_, ?_, fun pcId' fingerprint hpc hfp => ?_, hpins, hpins⟩
        · rintro p ⟨⟩
        · rintro p ⟨⟩
        · refine (hw.pending pcId' fingerprint hpc hfp).concat (hothers pcId' ?_)
          rintro rfl
          exact hpending hpc

/-- Nothing is lost but the confirmation when the activity or the process starts anew. -/
theorem Witnessed.renew (hw : Witnessed file h a) {trustedPcs : Table String String}
    (hpins : ∀ pcId fingerprint, trustedPcs.lookup pcId = some fingerprint →
      Vouched file h pcId fingerprint) : Witnessed file h (MainActivity.new trustedPcs a.file) where
  timeout := rfl
  shown := by rintro p ⟨⟩
  approved := by rintro p ⟨⟩
  pending := by rintro pcId fingerprint ⟨⟩
  pinned := hpins
  filed := hw.filed

/-- One step. -/
theorem Witnessed.step (hw : Witnessed file h a) (i : ActivityInput) :
    Witnessed file (h ++ [eventOf a i]) (a.step i).1 := by
  cases i with
  | recreate => exact (hw.renew hw.pinned).concat (by rintro pcId ⟨⟨⟩, -⟩) (by rintro p ⟨⟩)
  | restart => exact (hw.renew hw.filed).concat (by rintro pcId ⟨⟨⟩, -⟩) (by rintro p ⟨⟩)
  | confirmPcIdentity request now =>
    simp only [MainActivity.step, Prod.map_fst, id_eq]
    exact hw.confirmPcIdentity request now
  | pollPcIdentityConfirmation pcId fingerprint pairingCode now =>
    simp only [MainActivity.step, Prod.map_fst, id_eq]
    exact hw.pollPcIdentityConfirmation pcId fingerprint pairingCode now
  | cancelPcIdentityConfirmation pcId fingerprint pairingCode =>
    simp only [MainActivity.step, Prod.map_fst, id_eq]
    exact hw.cancelPcIdentityConfirmation pcId fingerprint pairingCode
  | tap key approved now =>
    simp only [MainActivity.step, Prod.map_fst, id_eq]
    exact hw.tap key approved now
  | rememberPcIdentity pcId fingerprint written =>
    simp only [MainActivity.step, Prod.map_fst, id_eq]
    exact hw.rememberPcIdentity pcId fingerprint written
  | forgetPcIdentity pcId written =>
    simp only [MainActivity.step, Prod.map_fst, id_eq]
    exact hw.forgetPcIdentity pcId written

end Step

section Studio

/-- The certificate of a PC. -/
def studioFingerprint : String := String.ofList (List.replicate 64 'a')

/-- The pairing with it. -/
def studioRequest : ConfirmRequest := ⟨"studio", "Studio", studioFingerprint, "123456", none⟩

/-- A pairing that is approved; then the process starts again and the PC shows another
certificate. -/
def studioInputs : List ActivityInput :=
  [.confirmPcIdentity studioRequest 1000,
    .tap ⟨"studio", studioFingerprint, "123456"⟩ true 2000,
    .pollPcIdentityConfirmation "studio" studioFingerprint "123456" 2100,
    .rememberPcIdentity "studio" studioFingerprint true, .restart,
    .confirmPcIdentity
      { studioRequest with fingerprint := String.ofList (List.replicate 64 'b') } 9000]

/-- The events of this pairing. -/
def studioEvents : List ActivityEvent := (machine ∅).events studioInputs

end Studio

section Run

variable {file : Table String String} {inputs : List ActivityInput}
  {pre post : List ActivityEvent} {e : ActivityEvent}

theorem witnessed_events (file : Table String String) (inputs : List ActivityInput) :
    Witnessed file ((machine file).events inputs) ((machine file).run inputs) :=
  (machine file).history_invariant (p := fun _ _ => True) (Witnessed.new file)
    (fun _ _ i hw _ => hw.step i) fun _ _ _ _ => trivial

/-- The state before an event and the state after it. -/
theorem witnessed_split (h : (machine file).events inputs = pre ++ e :: post) :
    Witnessed file pre e.before ∧ Witnessed file (pre ++ [e]) e.after := by
  have hbefore : Witnessed file pre e.before :=
    (machine file).history_before (p := fun _ _ => True) (Witnessed.new file)
      (fun _ _ i hw _ => hw.step i) (fun _ _ _ _ => trivial) h
  refine ⟨hbefore, ?_⟩
  have hmem : e ∈ (machine file).events inputs := by
    rw [h]
    exact List.mem_append_right _ List.mem_cons_self
  have hevent : e = eventOf e.before e.input := (machine file).eq_eventAt_of_mem hmem
  have hafter := hbefore.step e.input
  rw [← hevent] at hafter
  rwa [congrArg Event.after hevent]

/-- Whatever the calls, the taps, the failed writes and the restarts: at any time a certificate
that is pinned for a PC, in the process or in the file, is one the file held first or one that was
shown to the user and approved in time, and the PC was not forgotten since. -/
theorem pins_vouched (h : (machine file).events inputs = pre ++ e :: post)
    {pcId fingerprint : String}
    (hpin : e.after.trustedPcs.lookup pcId = some fingerprint ∨
      e.after.file.lookup pcId = some fingerprint) :
    Vouched file (pre ++ [e]) pcId fingerprint := by
  obtain ⟨-, hw⟩ := witnessed_split h
  exact hpin.elim (hw.pinned pcId fingerprint) (hw.filed pcId fingerprint)

theorem studioEvents_eq : studioEvents =
    studioEvents.take 3 ++ studioEvents.get ⟨3, by decide⟩ :: studioEvents.drop 4 := rfl

theorem pins_vouched_studioInputs :
    Vouched ∅ (studioEvents.take 3 ++ [studioEvents.get ⟨3, by decide⟩]) "studio"
      studioFingerprint :=
  pins_vouched studioEvents_eq (.inl (by decide +kernel))

/-- A poll that answers an approval has one. -/
theorem poll_approved {a : MainActivity} {key : PcIdentityConfirmationKey}
    {pcId fingerprint pairingCode : String} {now : ℕ}
    (hkey : pcIdentityConfirmationKey pcId fingerprint pairingCode = .ok key)
    (h : (a.pollPcIdentityConfirmation pcId fingerprint pairingCode now).2 = "APPROVED") :
    ∃ p, a.confirmation.pending = some p ∧ p.key = key ∧ p.result = .approved ∧
      now < p.expiresAtMillis := by
  unfold MainActivity.pollPcIdentityConfirmation at h
  rw [hkey] at h
  have happroved := name_eq_approved h
  obtain ⟨-, hother⟩ | ⟨-, hgiven⟩ := poll_cases a.confirmation key now
  · exact absurd happroved hother
  · exact hgiven happroved

/-- An error is told from an approval by its first letter. -/
theorem error_ne_approved (error : String) : "ERROR: " ++ error ≠ "APPROVED" := by
  intro h
  have hhead := congrArg (fun t : String => t.toList.head?) h
  simp only [String.toList_append] at hhead
  exact absurd (Option.some.inj hhead) (by decide)

/-- So does a confirmation. -/
theorem confirm_approved {a : MainActivity} {key : PcIdentityConfirmationKey}
    {request : ConfirmRequest} {now : ℕ}
    (hkey : pcIdentityConfirmationKey request.pcId request.fingerprint request.pairingCode =
      .ok key) (h : (a.confirmPcIdentity request now).2 = "APPROVED") :
    ∃ p, a.confirmation.pending = some p ∧ p.key = key ∧ p.result = .approved ∧
      now < p.expiresAtMillis := by
  unfold MainActivity.confirmPcIdentity at h
  rw [hkey] at h
  dsimp only at h
  split_ifs at h
  · have hanswer :
        "ERROR: The paired PC certificate changed. Forget this PC before pairing again." =
          "APPROVED" := h
    exact absurd hanswer (by decide)
  · have hanswer : "TRUSTED" = "APPROVED" := h
    exact absurd hanswer (by decide)
  · obtain hbegin | ⟨answer, hbegin, -, hgiven⟩ := begin_cases a.confirmation key now
    · rw [hbegin] at h
      have hanswer : "PENDING" = "APPROVED" := h
      exact absurd hanswer (by decide)
    · rw [hbegin] at h
      rcases answer with error | (_ | _ | _ | _ | _)
      · exact absurd h (error_ne_approved error)
      · have hanswer : "PENDING" = "APPROVED" := h
        exact absurd hanswer (by decide)
      · have hanswer : "PENDING" = "APPROVED" := h
        exact absurd hanswer (by decide)
      · exact hgiven rfl
      · have hanswer : "REJECTED" = "APPROVED" := h
        exact absurd hanswer (by decide)
      · have hanswer : "ERROR: Another PC pairing confirmation is already pending" =
            "APPROVED" := h
        exact absurd hanswer (by decide)

/-- A pairing that is told that the user has approved the PC is told so after a tap on its dialog,
before that is over, and no pairing was told since. -/
theorem approval_given (h : (machine file).events inputs = pre ++ e :: post)
    {key : PcIdentityConfirmationKey} {now : ℕ} (hanswer : AnswersApproved key now e) :
    ∃ before a between expires, pre = before ++ a :: between ∧
      ApprovedInTime key expires before a ∧ now < expires ∧
      ∀ f ∈ between, ∀ now, ¬Fetches key now f := by
  obtain ⟨hw, -⟩ := witnessed_split h
  have hmem : e ∈ (machine file).events inputs := by
    rw [h]
    exact List.mem_append_right _ List.mem_cons_self
  have houtput : e.output = (e.before.step e.input).2 :=
    congrArg Event.output ((machine file).eq_eventAt_of_mem hmem)
  obtain ⟨p, hp, rfl, hresult, hopen⟩ : ∃ p, e.before.confirmation.pending = some p ∧
      p.key = key ∧ p.result = .approved ∧ now < p.expiresAtMillis := by
    obtain ⟨⟨pcId, fingerprint, pairingCode, hinput, hkey⟩, htext⟩ |
      ⟨⟨request, hinput, hkey⟩, htext⟩ := hanswer
    · rw [houtput, hinput] at htext
      simp only [MainActivity.step, Prod.map_snd] at htext
      exact poll_approved hkey (ActivityAnswer.text.inj htext)
    · rw [houtput, hinput] at htext
      simp only [MainActivity.step, Prod.map_snd] at htext
      exact confirm_approved hkey (ActivityAnswer.text.inj htext)
  obtain ⟨before, a, between, heq, htime, hbetween⟩ := hw.approved p hp hresult
  exact ⟨before, a, between, _, heq, htime, hopen, hbetween⟩

theorem studioEvents_eq_polled : studioEvents =
    studioEvents.take 2 ++ studioEvents.get ⟨2, by decide⟩ :: studioEvents.drop 3 := rfl

theorem approval_given_studioInputs :
    ∃ before a between expires, studioEvents.take 2 = before ++ a :: between ∧
      ApprovedInTime ⟨"studio", studioFingerprint, "123456"⟩ expires before a ∧ 2100 < expires ∧
      ∀ f ∈ between, ∀ now, ¬Fetches ⟨"studio", studioFingerprint, "123456"⟩ now f :=
  approval_given studioEvents_eq_polled
    (.inl ⟨⟨"studio", studioFingerprint, "123456", rfl, by decide +kernel⟩, by decide +kernel⟩)

end Run

section Kept

variable {a : MainActivity} {pcId fingerprint : String}

/-- The certificate is pinned for the PC, in the process and in the file. -/
structure Pinned (pcId fingerprint : String) (a : MainActivity) : Prop where
  trusted : a.trustedPcs.lookup pcId = some (asciiLower fingerprint)
  filed : a.file.lookup pcId = some (asciiLower fingerprint)

/-- Nothing is written while a PC is confirmed. -/
theorem confirmPcIdentity_stores (a : MainActivity) (request : ConfirmRequest) (now : ℕ) :
    (a.confirmPcIdentity request now).1.trustedPcs = a.trustedPcs ∧
      (a.confirmPcIdentity request now).1.file = a.file := by
  unfold MainActivity.confirmPcIdentity
  split
  · exact ⟨rfl, rfl⟩
  · dsimp only
    split_ifs
    · exact ⟨rfl, rfl⟩
    · exact ⟨rfl, rfl⟩
    · split <;> exact ⟨rfl, rfl⟩

theorem pollPcIdentityConfirmation_stores (a : MainActivity)
    (pcId fingerprint pairingCode : String) (now : ℕ) :
    (a.pollPcIdentityConfirmation pcId fingerprint pairingCode now).1.trustedPcs = a.trustedPcs ∧
      (a.pollPcIdentityConfirmation pcId fingerprint pairingCode now).1.file = a.file := by
  unfold MainActivity.pollPcIdentityConfirmation
  split <;> exact ⟨rfl, rfl⟩

theorem cancelPcIdentityConfirmation_stores (a : MainActivity)
    (pcId fingerprint pairingCode : String) :
    (a.cancelPcIdentityConfirmation pcId fingerprint pairingCode).1.trustedPcs = a.trustedPcs ∧
      (a.cancelPcIdentityConfirmation pcId fingerprint pairingCode).1.file = a.file := by
  unfold MainActivity.cancelPcIdentityConfirmation
  split <;> exact ⟨rfl, rfl⟩

theorem tap_stores (a : MainActivity) (key : PcIdentityConfirmationKey) (approved : Bool)
    (now : ℕ) : (a.tap key approved now).1.trustedPcs = a.trustedPcs ∧
      (a.tap key approved now).1.file = a.file := by
  unfold MainActivity.tap
  split
  · split
    · split <;> exact ⟨rfl, rfl⟩
    · exact ⟨rfl, rfl⟩
  · exact ⟨rfl, rfl⟩

/-- Pins that are as they were are still pinned. -/
theorem Pinned.of_stores (hp : Pinned pcId fingerprint a) {b : MainActivity}
    (hstores : b.trustedPcs = a.trustedPcs ∧ b.file = a.file) : Pinned pcId fingerprint b :=
  ⟨hstores.1 ▸ hp.trusted, hstores.2 ▸ hp.filed⟩

/-- A write keeps what is pinned in both. -/
theorem Pinned.commit (hp : Pinned pcId fingerprint a) {trustedPcs : Table String String}
    (hpin : trustedPcs.lookup pcId = some (asciiLower fingerprint)) (written : Bool) :
    Pinned pcId fingerprint ({ a with trustedPcs }.commit written) := by
  unfold MainActivity.commit
  split
  · exact ⟨hpin, hpin⟩
  · exact ⟨hpin, hp.filed⟩

/-- A pinned PC can only be pinned with the certificate it has. -/
theorem Pinned.rememberPcIdentity (hp : Pinned pcId fingerprint a) (pcId' fingerprint' : String)
    (written : Bool) :
    Pinned pcId fingerprint (a.rememberPcIdentity pcId' fingerprint' written).1 := by
  unfold MainActivity.rememberPcIdentity
  dsimp only
  split_ifs with hdigits hchanged hunseen hfailed
  · exact hp
  · exact hp
  · exact hp
  all_goals
    have hpin : (a.trustedPcs.insert pcId' (asciiLower fingerprint')).lookup pcId =
        some (asciiLower fingerprint) := by
      rw [Table.lookup_insert_eq]
      split
      · next heq =>
        have hsame : EqIgnoreAsciiCase (asciiLower fingerprint) (asciiLower fingerprint') :=
          not_not.mp fun hne => hchanged ⟨_, heq ▸ hp.trusted, hne⟩
        rw [EqIgnoreAsciiCase, asciiLower_asciiLower, asciiLower_asciiLower] at hsame
        rw [hsame]
      · exact hp.trusted
  · exact hp.commit hpin written
  · exact (hp.commit hpin written).of_stores ⟨rfl, rfl⟩

/-- Another PC is forgotten. -/
theorem Pinned.forgetPcIdentity (hp : Pinned pcId fingerprint a) {pcId' : String}
    (hother : pcId' ≠ pcId) (written : Bool) :
    Pinned pcId fingerprint (a.forgetPcIdentity pcId' written).1 := by
  have hpin : (a.trustedPcs.erase pcId').lookup pcId = some (asciiLower fingerprint) := by
    rw [Table.lookup_erase_eq, if_neg hother.symm]
    exact hp.trusted
  unfold MainActivity.forgetPcIdentity
  split
  · exact hp
  · dsimp only
    split
    · exact hp.commit hpin written
    · split <;> exact (hp.commit hpin written).of_stores ⟨rfl, rfl⟩

/-- One step that does not ask to forget the PC. -/
theorem Pinned.step (hp : Pinned pcId fingerprint a) {i : ActivityInput}
    (hi : ∀ written, i ≠ .forgetPcIdentity pcId written) :
    Pinned pcId fingerprint (a.step i).1 := by
  cases i with
  | recreate => exact ⟨hp.trusted, hp.filed⟩
  | restart => exact ⟨hp.filed, hp.filed⟩
  | confirmPcIdentity request now =>
    simp only [MainActivity.step, Prod.map_fst, id_eq]
    exact hp.of_stores (a.confirmPcIdentity_stores request now)
  | pollPcIdentityConfirmation pcId' fingerprint' pairingCode now =>
    simp only [MainActivity.step, Prod.map_fst, id_eq]
    exact hp.of_stores (a.pollPcIdentityConfirmation_stores pcId' fingerprint' pairingCode now)
  | cancelPcIdentityConfirmation pcId' fingerprint' pairingCode =>
    simp only [MainActivity.step, Prod.map_fst, id_eq]
    exact hp.of_stores (a.cancelPcIdentityConfirmation_stores pcId' fingerprint' pairingCode)
  | tap key approved now =>
    simp only [MainActivity.step, Prod.map_fst, id_eq]
    exact hp.of_stores (a.tap_stores key approved now)
  | rememberPcIdentity pcId' fingerprint' written =>
    simp only [MainActivity.step, Prod.map_fst, id_eq]
    exact hp.rememberPcIdentity pcId' fingerprint' written
  | forgetPcIdentity pcId' written =>
    simp only [MainActivity.step, Prod.map_fst, id_eq]
    refine hp.forgetPcIdentity ?_ written
    rintro rfl
    exact hi written rfl

/-- A certificate that was remembered is pinned. -/
theorem pinned_of_remembered {written : Bool}
    (h : (a.rememberPcIdentity pcId fingerprint written).2 = "OK") :
    Pinned pcId fingerprint (a.rememberPcIdentity pcId fingerprint written).1 := by
  unfold MainActivity.rememberPcIdentity at h ⊢
  dsimp only at h ⊢
  split_ifs at h ⊢ with hdigits hchanged hunseen hfailed
  · have hanswer : "ERROR: Invalid PC certificate fingerprint" = "OK" := h
    exact absurd hanswer (by decide)
  · have hanswer : "ERROR: Refusing to replace an existing PC certificate pin" = "OK" := h
    exact absurd hanswer (by decide)
  · have hanswer : "ERROR: PC certificate was not confirmed by the phone user" = "OK" := h
    exact absurd hanswer (by decide)
  · have hanswer : "ERROR: Android could not persist the PC certificate pin" = "OK" := h
    exact absurd hanswer (by decide)
  · have hwritten : written = true := Bool.eq_true_of_not_eq_false hfailed
    have hpin : (a.trustedPcs.insert pcId (asciiLower fingerprint)).lookup pcId =
        some (asciiLower fingerprint) := by rw [Table.lookup_insert_eq, if_pos rfl]
    rw [MainActivity.commit, if_pos hwritten]
    exact ⟨hpin, hpin⟩

/-- A pinned PC that shows another certificate is turned down. -/
theorem Pinned.confirm (hp : Pinned pcId fingerprint a) {request : ConfirmRequest}
    {key : PcIdentityConfirmationKey} (hpc : request.pcId = pcId)
    (hkey : pcIdentityConfirmationKey request.pcId request.fingerprint request.pairingCode =
      .ok key) (hother : key.fingerprint ≠ asciiLower fingerprint) (now : ℕ) :
    a.confirmPcIdentity request now =
      (a, "ERROR: The paired PC certificate changed. Forget this PC before pairing again.") := by
  have hnamed : key.pcId = pcId ∧ key.fingerprint = asciiLower request.fingerprint := by
    unfold pcIdentityConfirmationKey at hkey
    split_ifs at hkey
    cases hkey
    exact ⟨hpc, rfl⟩
  unfold MainActivity.confirmPcIdentity
  rw [hkey]
  refine if_pos ⟨asciiLower fingerprint, ?_, fun hsame => hother ?_⟩
  · rw [hnamed.1]
    exact hp.trusted
  · rw [hnamed.2, EqIgnoreAsciiCase, asciiLower_asciiLower, asciiLower_asciiLower] at hsame
    rw [hnamed.2, hsame]

/-- Once the phone has answered that a certificate is remembered, the PC is known by it until it is
asked to forget the PC, whatever else is asked and however often activity and process start anew;
a pairing that shows another certificate of the PC is turned down. -/
theorem pin_kept {file : Table String String} {inputs : List ActivityInput}
    {pre mid post : List ActivityEvent} {e b : ActivityEvent} {written : Bool}
    (h : (machine file).events inputs = pre ++ e :: mid ++ b :: post)
    (hremember : e.input = .rememberPcIdentity pcId fingerprint written)
    (hanswer : e.output = .text "OK")
    (hmid : ∀ f ∈ mid, ∀ written, f.input ≠ .forgetPcIdentity pcId written) :
    b.before.getTrustedPcFingerprint pcId = asciiLower fingerprint ∧
      ∀ request key now, b.input = .confirmPcIdentity request now → request.pcId = pcId →
        pcIdentityConfirmationKey request.pcId request.fingerprint request.pairingCode = .ok key →
        key.fingerprint ≠ asciiLower fingerprint →
        b.after = b.before ∧ b.output = .text
          "ERROR: The paired PC certificate changed. Forget this PC before pairing again." := by
  obtain ⟨as, bs, cs, -, -, -, he, rfl, hbefore, hb⟩ := (machine file).eventsFrom_between h
  have hpinned : Pinned pcId fingerprint e.after := by
    rw [he, hremember] at hanswer
    simp only [Machine.eventAt_output, machine, MainActivity.step, Prod.map_snd] at hanswer
    rw [he, hremember]
    simp only [Machine.eventAt_after, machine, MainActivity.step, Prod.map_fst, id_eq]
    exact pinned_of_remembered (ActivityAnswer.text.inj hanswer)
  have hkept : Pinned pcId fingerprint b.before := by
    rw [hbefore]
    exact ((machine file).invariant_from
      (p := fun _ i => ∀ written, i ≠ .forgetPcIdentity pcId written)
      (fun _ _ hp hi => hp.step hi) hpinned hmid).2
  refine ⟨?_, fun request key now hinput hpc hkey hother => ?_⟩
  · rw [getTrustedPcFingerprint, hkept.trusted]
    rfl
  · have hturned := hkept.confirm hpc hkey hother now
    have hstep : b.before.step b.input = (b.before, .text
        "ERROR: The paired PC certificate changed. Forget this PC before pairing again.") := by
      rw [hinput, MainActivity.step, hturned]
      rfl
    exact ⟨(congrArg Event.after hb).trans (congrArg Prod.fst hstep),
      (congrArg Event.output hb).trans (congrArg Prod.snd hstep)⟩

theorem studioEvents_eq_kept : studioEvents =
    studioEvents.take 3 ++ studioEvents.get ⟨3, by decide⟩ :: (studioEvents.drop 4).take 1 ++
      studioEvents.get ⟨5, by decide⟩ :: [] := rfl

theorem pin_kept_studioInputs :
    (studioEvents.get ⟨5, by decide⟩).before.getTrustedPcFingerprint "studio" =
      asciiLower studioFingerprint :=
  have hremember : (studioEvents.get ⟨3, by decide⟩).input =
      .rememberPcIdentity "studio" studioFingerprint true := rfl
  (pin_kept studioEvents_eq_kept hremember (by decide +kernel)
    (by rintro f hf written hforget; obtain rfl := List.mem_singleton.mp hf; cases hforget)).1

end Kept

end MainActivity

end Gemacast.Phone
