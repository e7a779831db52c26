import Gemacast.Player.PlaybackControl

/-!
# Agreement of play and pause

Storing the intent and sending the command are two steps, and a failed call puts back what it
found. The stored intent is that of the last command as long as the call that sends last also
stored last; a worker that ends leaves the stream dead, which agrees with the user only while
the user wants a pause.
-/

namespace Gemacast.Player

open Gemacast.Core

namespace Playback

variable {s t : Playback} {id : CallId} {call : PlaybackCall} {command : PlaybackCommand}
  {ok : Bool}

/-- A call is between storing the intent and sending the command. -/
def Swapping (s : Playback) (id : CallId) : Prop :=
  ∃ call, s.calls.lookup id = some call ∧ call.phase = .swapped

/-- A call may yet put back the intent it found. -/
def MayRestore (s : Playback) (id : CallId) (previous : Bool) : Prop :=
  ∃ call, s.calls.lookup id = some call ∧ call.phase ≠ .answered true ∧ call.previous = previous

/-- The worker stops at the next command. -/
def Stops (s : Playback) (ok : Bool) : Prop :=
  ∃ command queue, s.queue = command :: queue ∧ (s.worker.take ok command).1.phase = .stopping

/-- A step is orderly: a command that is sent while no other call is about to send one is that
of the stored intent; the worker stops only after a pause, and no call that may yet fail then
found the intent to play; a call that begins later finds the pause. -/
def Orderly (s : Playback) : Step → Prop
  | .begin id _ =>
    s.calls.lookup id = none → s.worker.phase ≠ .running → s.userWantsPlaying = false
  | .send id =>
    ∀ call, s.calls.lookup id = some call → call.phase = .swapped → s.worker.phase = .running →
      (∀ other, other ≠ id → ¬s.Swapping other) → s.userWantsPlaying = call.playing
  | .work ok =>
    s.worker.phase = .running → s.Stops ok →
      s.worker.applied = false ∧ ∀ id previous, s.MayRestore id previous → previous = false
  | _ => True

/-- What holds while the worker takes commands. -/
structure Running (s : Playback) : Prop where
  /-- The worker takes commands. -/
  phase : s.worker.phase = .running
  /-- The stream is where the worker wants it. -/
  stream : s.worker.streamRunning = s.worker.shouldRun
  /-- Every user command so far went through. -/
  applied : s.worker.applied = s.worker.userWantsPlaying
  /-- The last idle command tells the state of the source. -/
  idle : s.queue.foldl idleAfter s.worker.sourceIdle = s.sourceIdle
  /-- The last user command asks for the stored intent, unless another one is to follow. -/
  intent : (∃ id, s.Swapping id) ∨
    s.queue.foldl intentAfter s.worker.userWantsPlaying = s.userWantsPlaying
  /-- No call has failed. -/
  unfailed : ∀ id call, s.calls.lookup id = some call →
    call.phase = .swapped ∨ call.phase = .sent ∨ call.phase = .answered true
  /-- The calls of the commands in the queue wait. -/
  waiting : ∀ id ∈ s.queue.filterMap callerOf,
    ∃ call, s.calls.lookup id = some call ∧ call.phase = .sent
  /-- A call sends one command. -/
  nodup : (s.queue.filterMap callerOf).Nodup

/-- What holds once the worker has left its loop. -/
structure Ended (s : Playback) : Prop where
  /-- The worker takes no more commands. -/
  phase : s.worker.phase ≠ .running
  /-- The last intent that went through was a pause. -/
  applied : s.worker.applied = false
  /-- A call that may yet put back an intent found a pause. -/
  restores : ∀ id previous, s.MayRestore id previous → previous = false
  /-- The intent stored is a pause, unless a call has yet to put one back. -/
  intent : (∃ id previous, s.MayRestore id previous) ∨ s.userWantsPlaying = false

/-! ### Calls -/

theorem move_lookup {phase : CallPhase} {k : CallId} : (s.move id call phase).calls.lookup k =
    if k = id then some { call with phase } else s.calls.lookup k :=
  Table.lookup_insert_eq

/-- A call that moves on may put back its intent as before, if success is not part of it. -/
theorem move_mayRestore {phase : CallPhase} (hcall : s.calls.lookup id = some call)
    (hbefore : call.phase ≠ .answered true) (hafter : phase ≠ .answered true) (k : CallId)
    (previous : Bool) : (s.move id call phase).MayRestore k previous ↔ s.MayRestore k previous := by
  unfold MayRestore
  rw [move_lookup]
  by_cases hk : k = id
  · subst hk
    rw [if_pos rfl, hcall]
    constructor
    · rintro ⟨-, ⟨⟩, -, rfl⟩
      exact ⟨call, rfl, hbefore, rfl⟩
    · rintro ⟨-, ⟨⟩, -, rfl⟩
      exact ⟨_, rfl, hafter, rfl⟩
  · rw [if_neg hk]

/-- A command that fails leaves its call the chance to put back its intent. -/
theorem respond_mayRestore (k : CallId) (previous : Bool) :
    (s.respond false command).MayRestore k previous ↔ s.MayRestore k previous := by
  unfold respond
  split
  · split
    · next hcall =>
      split
      · next hsent => exact move_mayRestore hcall (by rw [hsent]; decide) (by decide) k previous
      · rfl
    · rfl
  · rfl

@[simp] theorem respond_userWantsPlaying :
    (s.respond ok command).userWantsPlaying = s.userWantsPlaying := by
  unfold respond
  repeat' split
  all_goals rfl

@[simp] theorem respond_worker : (s.respond ok command).worker = s.worker := by
  unfold respond
  repeat' split
  all_goals rfl

@[simp] theorem respond_queue : (s.respond ok command).queue = s.queue := by
  unfold respond
  repeat' split
  all_goals rfl

@[simp] theorem respond_sourceIdle : (s.respond ok command).sourceIdle = s.sourceIdle := by
  unfold respond
  repeat' split
  all_goals rfl

/-- A command no call waits for is not answered. -/
theorem respond_of_none (h : callerOf command = none) : s.respond ok command = s := by
  cases command with
  | setUserPlaying playing id => nomatch h
  | setSourceIdle idle => rfl
  | shutdown => rfl

/-- Only the call of the command is answered. -/
theorem respond_lookup_ne {k : CallId} (h : callerOf command ≠ some k) :
    (s.respond ok command).calls.lookup k = s.calls.lookup k := by
  cases command with
  | setUserPlaying playing id =>
    have hk : k ≠ id := fun heq => h (congrArg some heq.symm)
    rw [respond]
    split
    · split
      · rw [move_lookup, if_neg hk]
      · rfl
    · rfl
  | setSourceIdle idle => rfl
  | shutdown => rfl

/-! ### While the worker takes commands -/

/-- A call that waits is no other call. -/
theorem Running.ne_of_mem {k : CallId} (h : s.Running) (hk : k ∈ s.queue.filterMap callerOf)
    (hcall : s.calls.lookup id = some call) (hphase : call.phase ≠ .sent) : k ≠ id := by
  rintro rfl
  obtain ⟨call', hcall', hsent⟩ := h.waiting k hk
  obtain rfl := Option.some.inj (hcall.symm.trans hcall')
  exact hphase hsent

/-- A call begins. -/
theorem Running.swap (h : s.Running) (hfresh : s.calls.lookup id = none) (playing : Bool) :
    (s.swap id playing).Running where
  phase := h.phase
  stream := h.stream
  applied := h.applied
  idle := h.idle
  intent := .inl ⟨id, _, AList.lookup_insert _, rfl⟩
  unfailed k call hcall := by
    rw [Playback.swap, Table.lookup_insert_eq] at hcall
    split at hcall
    · obtain rfl := Option.some.inj hcall
      exact .inl rfl
    · exact h.unfailed k call hcall
  waiting k hk := by
    obtain ⟨call, hcall, hsent⟩ := h.waiting k hk
    have hne : k ≠ id := by
      rintro rfl
      nomatch hfresh.symm.trans hcall
    exact ⟨call, (AList.lookup_insert_ne hne).trans hcall, hsent⟩
  nodup := h.nodup

/-- A call sends its command. -/
theorem Running.sendCommand (h : s.Running) (hcall : s.calls.lookup id = some call)
    (hphase : call.phase = .swapped)
    (hlast : (∀ other, other ≠ id → ¬s.Swapping other) → s.userWantsPlaying = call.playing) :
    (s.sendCommand id call).Running := by
  have hnot : id ∉ s.queue.filterMap callerOf := fun hmem =>
    h.ne_of_mem hmem hcall (by rw [hphase]; decide) rfl
  have hsend : s.sendCommand id call =
      { s.move id call .sent with queue := s.queue ++ [.setUserPlaying call.playing id] } := by
    rw [Playback.sendCommand, if_neg (by rw [h.phase]; decide)]
    exact if_neg (by rw [Playback.move, h.phase]; decide)
  rw [hsend]
  refine ⟨h.phase, h.stream, h.applied, ?_, ?_, ?_, ?_, ?_⟩
  · rw [List.foldl_append]
    exact h.idle
  · by_cases hothers : ∀ other, other ≠ id → ¬s.Swapping other
    · right
      rw [List.foldl_append]
      exact (hlast hothers).symm
    · left
      push Not at hothers
      obtain ⟨other, hne, call', hcall', hswapped⟩ := hothers
      exact ⟨other, call', (AList.lookup_insert_ne hne).trans hcall', hswapped⟩
  · intro k call' hcall'
    change (s.move id call .sent).calls.lookup k = some call' at hcall'
    rw [move_lookup] at hcall'
    split at hcall'
    · obtain rfl := Option.some.inj hcall'
      exact .inr (.inl rfl)
    · exact h.unfailed k call' hcall'
  · intro k hk
    change ∃ call', (s.move id call .sent).calls.lookup k = some call' ∧ _
    rw [List.filterMap_append, List.mem_append] at hk
    rw [move_lookup]
    obtain hk | hk := hk
    · have hne : k ≠ id := by
        rintro rfl
        exact hnot hk
      rw [if_neg hne]
      exact h.waiting k hk
    · obtain rfl := List.mem_singleton.mp hk
      exact ⟨_, if_pos rfl, rfl⟩
  · rw [List.filterMap_append]
    refine List.nodup_append.mpr ⟨h.nodup, List.nodup_singleton _, fun a ha b hb heq => ?_⟩
    obtain rfl := List.mem_singleton.mp hb
    subst heq
    exact hnot ha

/-- A call returns. -/
theorem Running.finishCall (h : s.Running) (hcall : s.calls.lookup id = some call) :
    (s.finishCall id call).Running := by
  unfold Playback.finishCall
  obtain hphase | hphase | hphase := h.unfailed id call hcall
  · rw [hphase]
    exact h
  · rw [hphase]
    exact h
  · rw [hphase]
    refine ⟨h.phase, h.stream, h.applied, h.idle, ?_, ?_, ?_, h.nodup⟩
    · refine h.intent.imp_left ?_
      rintro ⟨other, call', hcall', hswapped⟩
      have hne : other ≠ id := by
        rintro rfl
        obtain rfl := Option.some.inj (hcall.symm.trans hcall')
        nomatch hphase.symm.trans hswapped
      exact ⟨other, call', (AList.lookup_erase_ne hne).trans hcall', hswapped⟩
    · intro k call' hcall'
      rw [Table.lookup_erase_eq] at hcall'
      split at hcall'
      · nomatch hcall'
      · exact h.unfailed k call' hcall'
    · intro k hk
      obtain ⟨call', hcall', hsent⟩ := h.waiting k hk
      have hne := h.ne_of_mem hk hcall (by rw [hphase]; decide)
      exact ⟨call', (AList.lookup_erase_ne hne).trans hcall', hsent⟩

/-- A command no call waits for. -/
theorem filterMap_callerOf_concat {queue : List PlaybackCommand} (h : callerOf command = none) :
    (queue ++ [command]).filterMap callerOf = queue.filterMap callerOf := by
  rw [List.filterMap_append, List.filterMap_cons_none h, List.filterMap_nil, List.append_nil]

/-- A worker that takes commands has a queue. -/
theorem Running.push_eq (h : s.Running) (command : PlaybackCommand) :
    s.push command = { s with queue := s.queue ++ [command] } :=
  if_neg (by rw [h.phase]; decide)

/-- The receiver or the session puts a command into the queue. -/
theorem Running.concat (h : s.Running) (hcaller : callerOf command = none)
    (hintent : ∀ playing, intentAfter playing command = playing) :
    { s with
      queue := s.queue ++ [command]
      sourceIdle := idleAfter s.sourceIdle command : Playback }.Running := by
  refine ⟨h.phase, h.stream, h.applied, ?_, ?_, h.unfailed, ?_, ?_⟩
  · rw [List.foldl_append, h.idle]
    rfl
  · rw [List.foldl_append, List.foldl_cons, List.foldl_nil, hintent]
    exact h.intent
  · intro k hk
    rw [filterMap_callerOf_concat hcaller] at hk
    exact h.waiting k hk
  · rw [filterMap_callerOf_concat hcaller]
    exact h.nodup

/-- The callers of a queue are that of its first command and those of the rest. -/
theorem nodup_callers_cons {queue : List PlaybackCommand}
    (h : ((command :: queue).filterMap callerOf).Nodup) :
    (queue.filterMap callerOf).Nodup ∧
      ∀ k ∈ queue.filterMap callerOf, callerOf command ≠ some k := by
  cases hcaller : callerOf command with
  | none =>
    rw [List.filterMap_cons_none hcaller] at h
    exact ⟨h, fun k _ => nofun⟩
  | some id =>
    rw [List.filterMap_cons_some hcaller, List.nodup_cons] at h
    refine ⟨h.2, fun k hk heq => ?_⟩
    obtain rfl := Option.some.inj heq
    exact h.1 hk

/-- The call of the next command waits. -/
theorem Running.sent_of_caller {queue : List PlaybackCommand} {k : CallId} (h : s.Running)
    (hqueue : s.queue = command :: queue) (hcaller : callerOf command = some k) :
    ∃ call, s.calls.lookup k = some call ∧ call.phase = .sent := by
  refine h.waiting k ?_
  rw [hqueue, List.filterMap_cons_some hcaller]
  exact List.mem_cons_self

/-- The call of a command that waits gets the answer. -/
theorem respond_lookup (hcaller : callerOf command = some id)
    (hcall : s.calls.lookup id = some call) (hsent : call.phase = .sent) :
    (s.respond ok command).calls.lookup id = some { call with phase := .answered ok } := by
  cases command with
  | setUserPlaying playing k =>
    obtain rfl := Option.some.inj hcaller
    rw [respond, hcall]
    dsimp only
    rw [if_pos hsent, move_lookup, if_pos rfl]
  | setSourceIdle idle => nomatch hcaller
  | shutdown => nomatch hcaller

/-- A command goes through. -/
theorem Running.through {queue : List PlaybackCommand} {w : PlaybackWorker} (h : s.Running)
    (hqueue : s.queue = command :: queue) (hphase : w.phase = .running)
    (hstream : w.streamRunning = w.shouldRun)
    (hintent : w.userWantsPlaying = intentAfter s.worker.userWantsPlaying command)
    (hidle : w.sourceIdle = idleAfter s.worker.sourceIdle command)
    (happlied : w.applied = intentAfter s.worker.applied command) :
    (respond { s with queue, worker := w } true command).Running := by
  have hidles := h.idle
  have hintents := h.intent
  have hnodup := h.nodup
  rw [hqueue, List.foldl_cons] at hidles hintents
  rw [hqueue] at hnodup
  obtain ⟨hrest, hne⟩ := nodup_callers_cons hnodup
  refine ⟨?_, ?_, ?_, ?_, ?_, ?_, ?_, ?_⟩
  · rw [respond_worker, hphase]
  · rw [respond_worker, hstream]
  · rw [respond_worker, happlied, hintent, h.applied]
  · rw [respond_worker, respond_queue, respond_sourceIdle, hidle]
    exact hidles
  · rw [respond_worker, respond_queue, respond_userWantsPlaying, hintent]
    refine hintents.imp_left ?_
    rintro ⟨other, call, hcall, hswapped⟩
    refine ⟨other, call, (respond_lookup_ne fun hcaller => ?_).trans hcall, hswapped⟩
    obtain ⟨call', hcall', hsent⟩ := h.sent_of_caller hqueue hcaller
    obtain rfl := Option.some.inj (hcall.symm.trans hcall')
    nomatch hsent.symm.trans hswapped
  · intro k call hcall
    by_cases hcaller : callerOf command = some k
    · obtain ⟨call', hcall', hsent⟩ := h.sent_of_caller hqueue hcaller
      have hanswered := @respond_lookup { s with queue, worker := w } k call' command true hcaller
        hcall' hsent
      obtain rfl := Option.some.inj (hanswered.symm.trans hcall)
      exact .inr (.inr rfl)
    · rw [respond_lookup_ne hcaller] at hcall
      exact h.unfailed k call hcall
  · intro k hk
    rw [respond_queue] at hk
    have hwaiting := h.waiting k
    rw [hqueue, List.mem_filterMap] at hwaiting
    obtain ⟨command', hmem, hcaller⟩ := List.mem_filterMap.mp hk
    obtain ⟨call, hcall, hsent⟩ := hwaiting ⟨command', List.mem_cons_of_mem _ hmem, hcaller⟩
    exact ⟨call, (respond_lookup_ne (hne k hk)).trans hcall, hsent⟩
  · rw [respond_queue]
    exact hrest

/-- The worker leaves its loop at a command. -/
theorem Running.stops {queue : List PlaybackCommand} {w : PlaybackWorker} {through : Bool}
    (h : s.Running) (hphase : w.phase = .stopping) (happlied : w.applied = s.worker.applied)
    (hthrough : through = true → callerOf command = none) (hpaused : s.worker.applied = false)
    (hrestores : ∀ id previous, s.MayRestore id previous → previous = false) :
    (respond { s with queue, worker := w } through command).Ended := by
  have hmay : ∀ k previous, (respond { s with queue, worker := w } through command).MayRestore k
      previous ↔ s.MayRestore k previous := by
    intro k previous
    cases through with
    | false => exact respond_mayRestore k previous
    | true =>
      rw [respond_of_none (hthrough rfl)]
      rfl
  refine ⟨?_, ?_, ?_, ?_⟩
  · rw [respond_worker, hphase]
    decide
  · rw [respond_worker, happlied, hpaused]
  · intro k previous hk
    exact hrestores k previous ((hmay k previous).mp hk)
  · rw [respond_userWantsPlaying]
    by_cases hcallers : s.queue.filterMap callerOf = []
    · obtain ⟨k, call, hcall, hswapped⟩ | hintent := h.intent
      · have hk : s.MayRestore k call.previous := ⟨call, hcall, by rw [hswapped]; decide, rfl⟩
        exact .inl ⟨k, _, (hmay k _).mpr hk⟩
      · right
        rw [foldl_intentAfter hcallers, ← h.applied, hpaused] at hintent
        exact hintent.symm
    · obtain ⟨k, hk⟩ := List.exists_mem_of_ne_nil _ hcallers
      obtain ⟨call, hcall, hsent⟩ := h.waiting k hk
      have hk : s.MayRestore k call.previous := ⟨call, hcall, by rw [hsent]; decide, rfl⟩
      exact .inl ⟨k, _, (hmay k _).mpr hk⟩

/-! ### Once the worker has left its loop -/

/-- What the calls may put back, the stored intent and the worker decide. -/
theorem Ended.congr (h : s.Ended) (hphase : t.worker.phase ≠ .running)
    (happlied : t.worker.applied = s.worker.applied)
    (hintent : t.userWantsPlaying = s.userWantsPlaying)
    (hmay : ∀ k previous, t.MayRestore k previous ↔ s.MayRestore k previous) : t.Ended := by
  refine ⟨hphase, happlied.trans h.applied, ?_, ?_⟩
  · intro k previous hk
    exact h.restores k previous ((hmay k previous).mp hk)
  · rw [hintent]
    refine h.intent.imp_left ?_
    rintro ⟨k, previous, hk⟩
    exact ⟨k, previous, (hmay k previous).mpr hk⟩

/-- A call begins. -/
theorem Ended.swap (h : s.Ended) (hpaused : s.userWantsPlaying = false)
    (playing : Bool) : (s.swap id playing).Ended := by
  refine ⟨h.phase, h.applied, ?_, ?_⟩
  · rintro k previous ⟨call, hcall, hphase, rfl⟩
    rw [Playback.swap, Table.lookup_insert_eq] at hcall
    split at hcall
    · obtain rfl := Option.some.inj hcall
      exact hpaused
    · exact h.restores k _ ⟨call, hcall, hphase, rfl⟩
  · exact .inl ⟨id, _, _, AList.lookup_insert _, nofun, rfl⟩

/-- A command put into the queue changes no call. -/
theorem Ended.push (h : s.Ended) (command : PlaybackCommand) : (s.push command).Ended := by
  unfold Playback.push
  split
  · exact h
  · exact h.congr h.phase rfl rfl fun _ _ => Iff.rfl

/-- A call sends its command, or finds nobody to send it to. -/
theorem Ended.sendCommand (h : s.Ended) (hcall : s.calls.lookup id = some call)
    (hphase : call.phase = .swapped) : (s.sendCommand id call).Ended := by
  have hbefore : call.phase ≠ .answered true := by
    rw [hphase]
    decide
  unfold Playback.sendCommand
  split
  · exact h.congr h.phase rfl rfl (move_mayRestore hcall hbefore (by decide))
  · have hmoved : (s.move id call .sent).Ended :=
      h.congr h.phase rfl rfl (move_mayRestore hcall hbefore (by decide))
    exact hmoved.push _

/-- A call returns. -/
theorem Ended.finishCall (h : s.Ended) (hcall : s.calls.lookup id = some call) :
    (s.finishCall id call).Ended := by
  have hothers : ∀ k previous, ({ s with calls := s.calls.erase id } : Playback).MayRestore k
      previous ↔ k ≠ id ∧ s.MayRestore k previous := by
    intro k previous
    unfold MayRestore
    rw [Table.lookup_erase_eq]
    by_cases hk : k = id <;> simp [hk]
  unfold Playback.finishCall
  split
  · exact h
  · exact h
  · next hphase =>
    refine h.congr h.phase rfl rfl fun k previous => (hothers k previous).trans ?_
    refine and_iff_right_of_imp ?_
    rintro ⟨call', hcall', hmay, -⟩ rfl
    obtain rfl := Option.some.inj (hcall.symm.trans hcall')
    exact hmay hphase
  · next hphase =>
    have hprevious : call.previous = false :=
      h.restores id _ ⟨call, hcall, by rw [hphase]; decide, rfl⟩
    exact ⟨h.phase, h.applied, fun k previous hk => h.restores k previous
      ((hothers k previous).mp hk).2, .inr hprevious⟩
  · next hphase =>
    have hprevious : call.previous = false :=
      h.restores id _ ⟨call, hcall, by rw [hphase]; decide, rfl⟩
    exact ⟨h.phase, h.applied, fun k previous hk => h.restores k previous
      ((hothers k previous).mp hk).2, .inr hprevious⟩

/-- The worker goes. -/
theorem Ended.dropWorker (h : s.Ended) : s.dropWorker.Ended := by
  suffices hfold : ∀ queue : List PlaybackCommand,
      (queue.foldl (fun s command => s.respond false command) s).Ended by
    obtain hfold := hfold s.queue
    exact ⟨nofun, h.applied, hfold.restores, hfold.intent⟩
  intro queue
  induction queue generalizing s with
  | nil => exact h
  | cons command queue ih =>
    refine ih (h.congr ?_ ?_ respond_userWantsPlaying respond_mayRestore)
    · rw [respond_worker]
      exact h.phase
    · rw [respond_worker]

/-! ### Every step -/

/-- An orderly step keeps what holds while the worker takes commands, or ends with what holds
once it has left its loop. -/
theorem Running.step (h : s.Running) {i : Step} (hok : s.Orderly i) :
    (s.step i).Running ∨ (s.step i).Ended := by
  cases i with
  | begin id playing =>
    left
    rw [Playback.step]
    split
    · exact h
    · next hfresh => exact h.swap hfresh playing
  | send id =>
    left
    rw [Playback.step]
    split
    · next call hcall =>
      split
      · next hphase => exact h.sendCommand hcall hphase (hok call hcall hphase h.phase)
      · exact h
    · exact h
  | finish id =>
    left
    rw [Playback.step]
    split
    · next call hcall => exact h.finishCall hcall
    · exact h
  | setSourceIdle idle =>
    left
    rw [Playback.step, h.push_eq]
    exact @Running.concat s (.setSourceIdle idle) h rfl fun _ => rfl
  | shutdown =>
    left
    rw [Playback.step, h.push_eq]
    exact @Running.concat s .shutdown h rfl fun _ => rfl
  | work ok =>
    rw [Playback.step, if_pos h.phase, takeNext]
    split
    · exact .inl h
    · next command queue hqueue =>
      have htake := PlaybackWorker.take_takes h.phase ok command
      have hstops : (s.worker.take ok command).1.phase = .stopping → s.Stops ok :=
        fun hphase => ⟨command, queue, hqueue, hphase⟩
      generalize s.worker.take ok command = answer at htake hstops ⊢
      cases htake with
      | through hphase hstream hintent hidle happlied =>
        exact .inl (h.through hqueue hphase hstream hintent hidle happlied)
      | stops hphase happlied hthrough =>
        obtain ⟨hpaused, hrestores⟩ := hok h.phase (hstops hphase)
        exact .inr (h.stops hphase happlied hthrough hpaused hrestores)
  | drop =>
    left
    rw [Playback.step, if_neg (by rw [h.phase]; decide)]
    exact h

/-- Orderly steps keep what holds once the worker has left its loop. -/
theorem Ended.step (h : s.Ended) {i : Step} (hok : s.Orderly i) : (s.step i).Ended := by
  cases i with
  | begin id playing =>
    rw [Playback.step]
    split
    · exact h
    · next hfresh => exact h.swap (hok hfresh h.phase) playing
  | send id =>
    rw [Playback.step]
    split
    · next call hcall =>
      split
      · next hphase => exact h.sendCommand hcall hphase
      · exact h
    · exact h
  | finish id =>
    rw [Playback.step]
    split
    · next call hcall => exact h.finishCall hcall
    · exact h
  | setSourceIdle idle =>
    have hpushed := h.push (.setSourceIdle idle)
    exact ⟨hpushed.phase, hpushed.applied, hpushed.restores, hpushed.intent⟩
  | shutdown => exact h.push .shutdown
  | work ok =>
    rw [Playback.step, if_neg h.phase]
    exact h
  | drop =>
    rw [Playback.step]
    split
    · exact h.dropWorker
    · exact h

theorem running_new : new.Running where
  phase := rfl
  stream := rfl
  applied := rfl
  idle := rfl
  intent := .inr rfl
  unfailed := nofun
  waiting := nofun
  nodup := List.nodup_nil

/-- At rest, a worker that takes commands agrees with the user. -/
theorem Running.agrees (h : s.Running) (hquiescent : s.Quiescent) : s.Agrees := by
  obtain ⟨hcalls, hqueue, -⟩ := hquiescent
  have hidle := h.idle
  have hintent := h.intent
  rw [hqueue] at hidle hintent
  obtain ⟨k, call, hcall, -⟩ | hintent := hintent
  · nomatch (hcalls k).symm.trans hcall
  · have hphase : s.worker.phase ≠ .gone := by
      rw [h.phase]
      decide
    refine ⟨hintent.symm.trans h.applied.symm, ?_⟩
    rw [StreamRuns, and_iff_right hphase, h.stream, PlaybackWorker.shouldRun, ← hintent, ← hidle]
    simp

/-- At rest, a worker that has ended agrees with the user. -/
theorem Ended.agrees (h : s.Ended) (hquiescent : s.Quiescent) : s.Agrees := by
  obtain ⟨hcalls, -, hphase⟩ := hquiescent
  obtain ⟨k, previous, call, hcall, -⟩ | hintent := h.intent
  · nomatch (hcalls k).symm.trans hcall
  · have hgone : s.worker.phase = .gone := by
      cases hworker : s.worker.phase with
      | running => exact absurd hworker h.phase
      | stopping => exact absurd hworker hphase
      | gone => rfl
    refine ⟨hintent.trans h.applied.symm, iff_of_false (fun hruns => hruns.1 hgone) ?_⟩
    rw [hintent]
    nofun

/-- In every run of orderly steps, once all calls have returned and the queue is drained, the
stored intent is the one the worker last applied and the stream runs exactly when the user wants
it and the source is not idle. -/
theorem agrees_of_run {steps : List Step}
    (hok : ∀ e ∈ machine.events steps, e.before.Orderly e.input)
    (hquiescent : (machine.run steps).Quiescent) : (machine.run steps).Agrees := by
  have hstep : ∀ s i, s.Running ∨ s.Ended → s.Orderly i →
      (machine.step s i).1.Running ∨ (machine.step s i).1.Ended := by
    rintro s i (h | h) hok
    · exact h.step hok
    · exact .inr (h.step hok)
  obtain h | h := (machine.invariant (.inl running_new) hstep hok).2
  · exact h.agrees hquiescent
  · exact h.agrees hquiescent

/-- The user pauses, and the pause goes through. -/
def onePause : List Step := [.begin 0 false, .send 0, .work true, .finish 0]

/-- After one pause all agree. -/
theorem agrees_of_run_onePause : (machine.run onePause).Agrees := by
  refine agrees_of_run (fun e he => ?_) ⟨fun id => rfl, rfl, by rintro ⟨⟩⟩
  simp only [onePause, Machine.events, Machine.eventsFrom_cons, Machine.eventsFrom_nil,
    List.mem_cons, List.not_mem_nil, or_false] at he
  obtain rfl | rfl | rfl | rfl := he
  · intro _ hphase
    exact absurd rfl hphase
  · rintro call ⟨⟩ - - -
    rfl
  · rintro - ⟨command, queue, hqueue, hphase⟩
    cases hqueue
    cases hphase
  · trivial

/-- A pause and a resume overlap: the pause stores its intent first and sends its command
last. -/
def overtakingResume : List Step :=
  [.begin 0 false, .begin 1 true, .send 1, .send 0, .work true, .work true, .finish 1, .finish 0]

/-- A resume that overtakes a pause leaves the stream paused while the user wants to play. -/
theorem not_agrees_overtakingResume :
    ¬∀ steps, (machine.run steps).Quiescent → (machine.run steps).Agrees := by
  intro h
  have hagrees := h overtakingResume ⟨fun id => rfl, rfl, nofun⟩
  nomatch hagrees.1

end Playback

end Gemacast.Player
