import Gemacast.Core.Tasks

/-!
# Where an entry comes from

Something has held since another thing happened. What a machine or the tasks on a shared state
keep in a table was put there by an event, and nothing has removed it since: a property of one
step becomes one of every run.
-/

namespace Gemacast.Core

section Since

variable {α : Type*} {P P' : List α → α → Prop} {Q Q' : α → Prop} {h t : List α} {a : α}

/-- It happened, after what was before it, and nothing has undone it since. -/
def Since (P : List α → α → Prop) (Q : α → Prop) (h : List α) : Prop :=
  ∃ pre e post, h = pre ++ e :: post ∧ P pre e ∧ ∀ f ∈ post, ¬Q f

/-- It happens now. -/
theorem since_concat (ha : P h a) : Since P Q (h ++ [a]) :=
  ⟨h, a, [], rfl, ha, fun _ hf => absurd hf List.not_mem_nil⟩

/-- What follows does not undo it. -/
theorem Since.append (hs : Since P Q h) (ht : ∀ f ∈ t, ¬Q f) : Since P Q (h ++ t) := by
  obtain ⟨pre, e, post, rfl, he, hpost⟩ := hs
  refine ⟨pre, e, post ++ t, by simp, he, fun f hf => ?_⟩
  obtain hold | hnew := List.mem_append.mp hf
  · exact hpost f hold
  · exact ht f hnew

theorem Since.concat (hs : Since P Q h) (ha : ¬Q a) : Since P Q (h ++ [a]) :=
  hs.append (by simpa using ha)

theorem since_concat_iff : Since P Q (h ++ [a]) ↔ P h a ∨ Since P Q h ∧ ¬Q a := by
  constructor
  · rintro ⟨pre, e, post, heq, he, hpost⟩
    obtain rfl | ⟨post, last, rfl⟩ := List.eq_nil_or_concat post
    · obtain ⟨rfl, hlast⟩ := List.append_inj' heq rfl
      obtain rfl := List.singleton_inj.mp hlast
      exact .inl he
    · rw [List.concat_eq_append, ← List.cons_append, ← List.append_assoc] at heq
      obtain ⟨rfl, hlast⟩ := List.append_inj' heq rfl
      obtain rfl := List.singleton_inj.mp hlast
      exact .inr ⟨⟨pre, e, post, rfl, he, fun f hf => hpost f (by simp [hf])⟩,
        hpost a (by simp)⟩
  · rintro (ha | ⟨hs, ha⟩)
    · exact since_concat ha
    · exact hs.concat ha

theorem Since.mono (hs : Since P Q h) (hP : ∀ pre e, P pre e → P' pre e)
    (hQ : ∀ e, Q' e → Q e) : Since P' Q' h := by
  obtain ⟨pre, e, post, rfl, he, hpost⟩ := hs
  exact ⟨pre, e, post, rfl, hP pre e he, fun f hf hQf => hpost f hf (hQ f hQf)⟩

/-- It is one of the events. -/
theorem Since.exists_mem (hs : Since P Q h) : ∃ e ∈ h, ∃ pre, P pre e := by
  obtain ⟨pre, e, post, rfl, he, -⟩ := hs
  exact ⟨e, List.mem_append_right _ List.mem_cons_self, pre, he⟩

/-- What is drawn once is drawn at one place. -/
theorem eq_of_nodup_filterMap {β : Type*} {f : α → Option β} {l pre post pre' post' : List α}
    {a' : α} {b : β} (hnodup : (l.filterMap f).Nodup) (hl : l = pre ++ a :: post)
    (hl' : l = pre' ++ a' :: post') (ha : f a = some b) (ha' : f a' = some b) :
    pre = pre' ∧ a = a' := by
  induction pre generalizing l pre' with
  | nil =>
    cases pre' with
    | nil => exact ⟨rfl, (List.cons.inj (hl.symm.trans hl')).1⟩
    | cons x pre' =>
      obtain ⟨-, rfl⟩ := List.cons.inj (hl.symm.trans hl')
      subst hl
      simp [ha, ha'] at hnodup
  | cons x pre ih =>
    cases pre' with
    | nil =>
      obtain ⟨rfl, -⟩ := List.cons.inj (hl'.symm.trans hl)
      subst hl
      simp [ha, ha'] at hnodup
    | cons y pre' =>
      subst hl
      obtain ⟨rfl, hrest⟩ := List.cons.inj hl'
      obtain ⟨rfl, rfl⟩ :=
        ih (hnodup.sublist ((List.sublist_cons_self _ _).filterMap f)) rfl hrest
      exact ⟨rfl, rfl⟩

end Since

namespace Machine

variable {σ ι ο κ ν : Type*} (M : Machine σ ι ο)

/-- An entry every step puts in or leaves was there at first, or was put in by a step, and has not
been removed since. -/
theorem kept_or_since (entry : σ → κ → Option ν)
    (Puts : κ → ν → List (Event σ ι ο) → Event σ ι ο → Prop)
    (Removes : κ → ν → Event σ ι ο → Prop)
    (hstep : ∀ is i k v, entry (M.step (M.run is) i).1 k = some v →
      Puts k v (M.events is) (M.eventAt (M.run is) i) ∨
        entry (M.run is) k = some v ∧ ¬Removes k v (M.eventAt (M.run is) i))
    {is : List ι} {k : κ} {v : ν} (hentry : entry (M.run is) k = some v) :
    (entry M.init k = some v ∧ ∀ e ∈ M.events is, ¬Removes k v e) ∨
      Since (Puts k v) (Removes k v) (M.events is) := by
  induction is using List.reverseRecOn with
  | nil => exact .inl ⟨hentry, fun _ he => absurd he List.not_mem_nil⟩
  | append_singleton is i ih =>
    rw [run_concat] at hentry
    rw [events_concat]
    obtain hput | ⟨hbefore, hkept⟩ := hstep is i k v hentry
    · exact .inr (since_concat hput)
    · obtain ⟨hinit, hall⟩ | hsince := ih hbefore
      · refine .inl ⟨hinit, fun e he => ?_⟩
        obtain hold | hnew := List.mem_append.mp he
        · exact hall e hold
        · rwa [List.mem_singleton.mp hnew]
      · exact .inr (hsince.concat hkept)

/-- The run up to an event. -/
theorem run_of_split {is : List ι} {pre post : List (Event σ ι ο)} {e : Event σ ι ο}
    (h : M.events is = pre ++ e :: post) :
    ∃ as, pre = M.events as ∧ e.before = M.run as := by
  obtain ⟨as, bs, -, hpre, he, -⟩ := M.eventsFrom_split h
  exact ⟨as, hpre, congrArg Event.before he⟩

end Machine

namespace TaskSystem

variable {σ ω Op Id Job χ κ ν : Type} {Ans : Op → Type} [DecidableEq Id]
  (T : TaskSystem σ ω Op Ans Id Job χ)

/-- A call was made. -/
def Made (P : σ → σ → Called Op Ans → Prop) (e : TaskEvent σ ω Op Ans Id Job χ) : Prop :=
  ∃ id job call, e.output = .called id job call ∧ P e.before.shared e.after.shared call

/-- An entry of the shared state that every call puts in or leaves, and that nothing else puts
in, was there at first or was put in by a call of a task, and no call has removed it since. -/
theorem kept_or_since (entry : σ → κ → Option ν)
    (Puts : κ → ν → σ → σ → Called Op Ans → Prop) (Removes : κ → ν → Called Op Ans → Prop)
    (haccept : ∀ s id job s' k v, T.accept s id job = some s' → entry s' k = some v →
      entry s k = some v)
    (houtside : ∀ s change k v, entry (T.outside s change) k = some v → entry s k = some v)
    (hexecute : ∀ world s op s' answer k v, T.execute world s op = some (s', answer) →
      entry s' k = some v → Puts k v s s' ⟨op, answer⟩ ∨
        entry s k = some v ∧ ¬Removes k v ⟨op, answer⟩)
    {is : List (Turn ω Id Job χ)} {k : κ} {v : ν}
    (hentry : entry (T.machine.run is).shared k = some v) :
    (entry T.init k = some v ∧ ∀ e ∈ T.machine.events is, ¬Made (fun _ _ => Removes k v) e) ∨
      Since (fun _ => Made (Puts k v)) (Made fun _ _ => Removes k v) (T.machine.events is) := by
  refine T.machine.kept_or_since (fun s => entry s.shared) (fun k v _ => Made (Puts k v))
    (fun k v => Made fun _ _ => Removes k v) (fun is turn k v hlater => ?_) hentry
  have houtcome := step_outcome T (T.machine.run is) turn
  change Made (Puts k v) ⟨T.machine.run is, turn, (T.step (T.machine.run is) turn).2,
      (T.step (T.machine.run is) turn).1⟩ ∨ _ ∧ ¬Made (fun _ _ => Removes k v)
    ⟨T.machine.run is, turn, (T.step (T.machine.run is) turn).2,
      (T.step (T.machine.run is) turn).1⟩
  change entry (T.step (T.machine.run is) turn).1.shared k = some v at hlater
  generalize (T.step (T.machine.run is) turn).1 = next at houtcome hlater ⊢
  generalize (T.step (T.machine.run is) turn).2 = report at houtcome ⊢
  cases houtcome with
  | idle => exact .inr ⟨hlater, by rintro ⟨_, _, _, ⟨⟩, -⟩⟩
  | started _ haccepted =>
    exact .inr ⟨haccept _ _ _ _ _ _ haccepted hlater, by rintro ⟨_, _, _, ⟨⟩, -⟩⟩
  | changed change => exact .inr ⟨houtside _ _ _ _ hlater, by rintro ⟨_, _, _, ⟨⟩, -⟩⟩
  | @called id job op rest world shared answer htask hexecuted =>
    obtain hput | ⟨hbefore, hkept⟩ := hexecute world _ op shared answer k v hexecuted hlater
    · exact .inl ⟨id, job, ⟨op, answer⟩, rfl, hput⟩
    · refine .inr ⟨hbefore, ?_⟩
      rintro ⟨_, _, _, ⟨⟩, hremoved⟩
      exact hkept hremoved

/-- An entry that was not there at first was put in. -/
theorem since_of_entry (entry : σ → κ → Option ν)
    (Puts : κ → ν → σ → σ → Called Op Ans → Prop) (Removes : κ → ν → Called Op Ans → Prop)
    (hinit : ∀ k, entry T.init k = none)
    (haccept : ∀ s id job s' k v, T.accept s id job = some s' → entry s' k = some v →
      entry s k = some v)
    (houtside : ∀ s change k v, entry (T.outside s change) k = some v → entry s k = some v)
    (hexecute : ∀ world s op s' answer k v, T.execute world s op = some (s', answer) →
      entry s' k = some v → Puts k v s s' ⟨op, answer⟩ ∨
        entry s k = some v ∧ ¬Removes k v ⟨op, answer⟩)
    {is : List (Turn ω Id Job χ)} {k : κ} {v : ν}
    (hentry : entry (T.machine.run is).shared k = some v) :
    Since (fun _ => Made (Puts k v)) (Made fun _ _ => Removes k v) (T.machine.events is) := by
  obtain ⟨hfirst, -⟩ | hsince :=
    kept_or_since T entry Puts Removes haccept houtside hexecute hentry
  · cases (hinit k).symm.trans hfirst
  · exact hsince

/-- What was put in and has not been removed is there. -/
theorem entry_of_since (entry : σ → κ → Option ν)
    (Puts : κ → ν → σ → σ → Called Op Ans → Prop) (Removes : κ → ν → Called Op Ans → Prop)
    (haccept : ∀ s id job s', T.accept s id job = some s' → entry s' = entry s)
    (houtside : ∀ s change, entry (T.outside s change) = entry s)
    (hput : ∀ world s op s' answer k v, T.execute world s op = some (s', answer) →
      Puts k v s s' ⟨op, answer⟩ → entry s' k = some v)
    (hkeep : ∀ world s op s' answer k v, T.execute world s op = some (s', answer) →
      entry s k = some v → ¬Removes k v ⟨op, answer⟩ → entry s' k = some v)
    {is : List (Turn ω Id Job χ)} {k : κ} {v : ν}
    (h : Since (fun _ => Made (Puts k v)) (Made fun _ _ => Removes k v) (T.machine.events is)) :
    entry (T.machine.run is).shared k = some v := by
  induction is using List.reverseRecOn with
  | nil =>
    obtain ⟨e, he, -⟩ := h.exists_mem
    cases he
  | append_singleton is turn ih =>
    rw [Machine.events_concat, since_concat_iff] at h
    rw [Machine.run_concat]
    have houtcome := step_outcome T (T.machine.run is) turn
    change Made (Puts k v) ⟨T.machine.run is, turn, (T.step (T.machine.run is) turn).2,
        (T.step (T.machine.run is) turn).1⟩ ∨ _ ∧ ¬Made (fun _ _ => Removes k v)
      ⟨T.machine.run is, turn, (T.step (T.machine.run is) turn).2,
        (T.step (T.machine.run is) turn).1⟩ at h
    change entry (T.step (T.machine.run is) turn).1.shared k = some v
    generalize (T.step (T.machine.run is) turn).1 = next at houtcome h ⊢
    generalize (T.step (T.machine.run is) turn).2 = report at houtcome h
    cases houtcome with
    | idle =>
      obtain ⟨_, _, _, ⟨⟩, -⟩ | ⟨hsince, -⟩ := h
      exact ih hsince
    | started _ haccepted =>
      obtain ⟨_, _, _, ⟨⟩, -⟩ | ⟨hsince, -⟩ := h
      exact (congrFun (haccept _ _ _ _ haccepted) k).trans (ih hsince)
    | changed change =>
      obtain ⟨_, _, _, ⟨⟩, -⟩ | ⟨hsince, -⟩ := h
      exact (congrFun (houtside _ change) k).trans (ih hsince)
    | @called id job op rest world shared answer htask hexecuted =>
      obtain ⟨_, _, _, ⟨⟩, hmade⟩ | ⟨hsince, hkept⟩ := h
      · exact hput world _ op shared answer k v hexecuted hmade
      · exact hkeep world _ op shared answer k v hexecuted (ih hsince) fun hremoved =>
          hkept ⟨id, job, ⟨op, answer⟩, rfl, hremoved⟩

variable {T} {id : Id} {job : Job} {calls : List (Called Op Ans)}
  {h : List (TaskEvent σ ω Op Ans Id Job χ)}

/-- Every call of a task is allowed by its program. -/
theorem allowed_of_called {allowed : Op → Prop} {is : List (Turn ω Id Job χ)}
    {pre post : List (TaskEvent σ ω Op Ans Id Job χ)} {e : TaskEvent σ ω Op Ans Id Job χ}
    {call : Called Op Ans} (hjob : Program.Uses allowed (T.program job))
    (hrun : T.machine.events is = pre ++ e :: post) (hcalled : e.output = .called id job call) :
    allowed call.op := by
  have hobeys : (T.program job).Obeys (fun _ => allowed) (fun _ _ => True) [] :=
    (hjob.obeys (fun _ => False) (fun _ _ _ h => h) (fun _ h => absurd h List.not_mem_nil)
      fun _ _ h => h).mono (fun _ _ h => h) fun _ _ _ => trivial
  obtain ⟨calls, -, hop⟩ := contract_of_called hobeys hrun hcalled
  exact hop

/-- A task that is at a job has taken it up. -/
theorem started_of_work (hwork : work id h = some (job, calls)) :
    ∃ pre e post, h = pre ++ e :: post ∧ e.output = .started id job := by
  induction h using List.reverseRecOn generalizing calls with
  | nil => cases hwork
  | append_singleton h last ih =>
    have hold : ∀ {calls'}, work id h = some (job, calls') →
        ∃ pre e post, h ++ [last] = pre ++ e :: post ∧ e.output = .started id job := by
      intro calls' hbefore
      obtain ⟨pre, e, post, rfl, hstarted⟩ := ih hbefore
      exact ⟨pre, e, post ++ [last], by simp, hstarted⟩
    rw [work_concat] at hwork
    cases hlast : last.output with
    | idle | changed =>
      rw [hlast] at hwork
      exact hold hwork
    | started id' job' =>
      rw [hlast, record] at hwork
      split at hwork
      · next heq =>
        obtain ⟨rfl, -⟩ := Prod.mk.inj (Option.some.inj hwork)
        exact ⟨h, last, [], rfl, heq ▸ hlast⟩
      · exact hold hwork
    | called id' job' call =>
      rw [hlast, record] at hwork
      split at hwork
      · obtain ⟨⟨job'', calls''⟩, hbefore, hnow⟩ := Option.map_eq_some_iff.mp hwork
        obtain ⟨rfl, -⟩ := Prod.mk.inj hnow
        exact hold hbefore
      · exact hold hwork

/-- A call a task has made on its job was made while it was at that job, and so was everything the
task has done since. -/
theorem split_of_work {call : Called Op Ans} (hwork : work id h = some (job, calls))
    (hcall : call ∈ calls) : ∃ pre e post job' calls' rest, h = pre ++ e :: post ∧
      e.output = .called id job' call ∧ work id pre = some (job, calls') ∧
      calls = calls' ++ call :: rest ∧
      ∀ e' ∈ post, ∀ job'' call', e'.output = .called id job'' call' → call' ∈ rest := by
  induction h using List.reverseRecOn generalizing calls with
  | nil => cases hwork
  | append_singleton h last ih =>
    have hold : ∀ {calls' l}, work id h = some (job, calls') → call ∈ calls' →
        (∀ job'' call', last.output = .called id job'' call' → call' ∈ l) →
        ∃ pre e post job' calls'' rest, h ++ [last] = pre ++ e :: post ∧
          e.output = .called id job' call ∧ work id pre = some (job, calls'') ∧
          calls' ++ l = calls'' ++ call :: rest ∧
          ∀ e' ∈ post, ∀ job'' call', e'.output = .called id job'' call' → call' ∈ rest := by
      intro calls' l hbefore hmem hlast
      obtain ⟨pre, e, post, job', calls'', rest, rfl, hcalled, hthen, rfl, hpost⟩ := ih hbefore hmem
      refine ⟨pre, e, post ++ [last], job', calls'', rest ++ l, by simp, hcalled, hthen, by simp,
        fun e' he' job'' call' hcalled' => ?_⟩
      obtain hmem' | hmem' := List.mem_append.mp he'
      · exact List.mem_append_left _ (hpost e' hmem' job'' call' hcalled')
      · obtain rfl := List.mem_singleton.mp hmem'
        exact List.mem_append_right _ (hlast job'' call' hcalled')
    rw [work_concat] at hwork
    cases hlast : last.output with
    | idle | changed =>
      rw [hlast] at hwork
      simpa using hold hwork hcall (l := []) fun _ _ h => by cases hlast.symm.trans h
    | started id' job' =>
      rw [hlast, record] at hwork
      split at hwork
      · obtain ⟨-, rfl⟩ := Prod.mk.inj (Option.some.inj hwork)
        cases hcall
      · simpa using hold hwork hcall (l := []) fun _ _ h => by cases hlast.symm.trans h
    | called id' job' new =>
      rw [hlast, record] at hwork
      split at hwork
      · next heq =>
        obtain ⟨⟨job'', calls''⟩, hbefore, hnow⟩ := Option.map_eq_some_iff.mp hwork
        obtain ⟨rfl, rfl⟩ := Prod.mk.inj hnow
        obtain hmem | hmem := List.mem_append.mp hcall
        · refine hold hbefore hmem fun job₁ call₁ hcalled => ?_
          obtain ⟨-, -, rfl⟩ := Report.called.inj (hlast.symm.trans hcalled)
          exact List.mem_singleton_self _
        · obtain rfl := List.mem_singleton.mp hmem
          exact ⟨h, last, [], job', calls'', [], rfl, heq ▸ hlast, hbefore, rfl,
            fun _ hnil => absurd hnil List.not_mem_nil⟩
      · next hne =>
        simpa using hold hwork hcall (l := []) fun _ _ h =>
          absurd (Report.called.inj (hlast.symm.trans h)).1 hne

/-- A call of a task was made on the job the task is at, or the task is done with the job, and what
was promised for its end holds of its calls. -/
theorem current_or_ended {φ : List (Called Op Ans) → Op → Prop}
    {ψ : List (Called Op Ans) → Unit → Prop} {call : Called Op Ans}
    (hjob : (T.program job).Obeys φ ψ []) {is : List (Turn ω Id Job χ)}
    {pre post : List (TaskEvent σ ω Op Ans Id Job χ)} {e q : TaskEvent σ ω Op Ans Id Job χ}
    (hrun : T.machine.events is = pre ++ e :: post) (hq : q ∈ pre)
    (hcalled : q.output = .called id job call) :
    (∃ calls, work id pre = some (job, calls) ∧ call ∈ calls) ∨
      ∃ calls, call ∈ calls ∧ ψ calls () ∧
        ∀ c ∈ calls, ∃ q ∈ pre, ∃ job', q.output = .called id job' c := by
  refine (T.machine.history_before (I := fun h s => Working T h s ∧
    ∀ q ∈ h, q.output = .called id job call →
      (∃ calls, work id h = some (job, calls) ∧ call ∈ calls) ∨
        ∃ calls, call ∈ calls ∧ ψ calls () ∧
          ∀ c ∈ calls, ∃ q ∈ h, ∃ job', q.output = .called id job' c) (p := fun _ _ => True)
    ⟨Working.nil T, fun _ h => absurd h List.not_mem_nil⟩ ?_ (fun _ _ _ _ => trivial) hrun).2 q hq
      hcalled
  rintro h s turn ⟨hworking, hdone⟩ -
  refine ⟨hworking.step turn, fun q hq hcalled => ?_⟩
  have hlater : ∀ {calls : List (Called Op Ans)},
      (∀ c ∈ calls, ∃ q ∈ h, ∃ job', q.output = .called id job' c) →
      ∀ c ∈ calls, ∃ q ∈ h ++ [T.machine.eventAt s turn], ∃ job', q.output = .called id job' c := by
    intro calls hmade c hc
    obtain ⟨q, hq, hqc⟩ := hmade c hc
    exact ⟨q, List.mem_append_left _ hq, hqc⟩
  have hbefore : q ∈ h ∨ (T.step s turn).2 = .called id job call := by
    obtain hold | hnew := List.mem_append.mp hq
    · exact .inl hold
    · obtain rfl := List.mem_singleton.mp hnew
      exact .inr hcalled
  rw [work_concat, Machine.eventAt_output]
  change (∃ calls, record id (work id h) (T.step s turn).2 = some (job, calls) ∧ call ∈ calls) ∨ _
  have hid := hworking id
  have houtcome := step_outcome T s turn
  generalize (T.step s turn).1 = next at houtcome
  generalize (T.step s turn).2 = report at houtcome hbefore ⊢
  cases houtcome with
  | idle | changed =>
    obtain hold | hnew := hbefore
    · exact (hdone q hold hcalled).imp_right fun ⟨calls, hmem, hend, hmade⟩ =>
        ⟨calls, hmem, hend, hlater hmade⟩
    · cases hnew
  | @started id' job' shared hvacant haccept =>
    obtain hold | hnew := hbefore
    · obtain ⟨calls, hwork, hmem⟩ | ⟨calls, hmem, hend, hmade⟩ := hdone q hold hcalled
      · by_cases heq : id' = id
        · subst heq
          obtain hnone | ⟨job'', result, htask, -⟩ := vacant_iff.mp hvacant
          · rw [hnone] at hid
            cases hid.symm.trans hwork
          · rw [htask] at hid
            obtain ⟨calls', hwork', hpath⟩ := hid
            obtain ⟨rfl, rfl⟩ := Prod.mk.inj (Option.some.inj (hwork'.symm.trans hwork))
            exact .inr ⟨calls', hmem, hpath.at_done hjob,
              hlater fun c hc => called_of_work hwork hc⟩
        · exact .inl ⟨calls, by rw [record, if_neg heq, hwork], hmem⟩
      · exact .inr ⟨calls, hmem, hend, hlater hmade⟩
    · cases hnew
  | @called id' job' op rest world shared answer htask hexecute =>
    by_cases heq : id' = id
    · subst heq
      rw [htask] at hid
      obtain ⟨calls', hwork', -⟩ := hid
      obtain hold | hnew := hbefore
      · obtain ⟨calls, hwork, hmem⟩ | ⟨calls, hmem, hend, hmade⟩ := hdone q hold hcalled
        · exact .inl ⟨calls ++ [⟨op, answer⟩], by rw [record, if_pos rfl, hwork, Option.map_some],
            List.mem_append_left _ hmem⟩
        · exact .inr ⟨calls, hmem, hend, hlater hmade⟩
      · obtain ⟨-, rfl, rfl⟩ := Report.called.inj hnew
        exact .inl ⟨calls' ++ [⟨op, answer⟩],
          by rw [record, if_pos rfl, hwork', Option.map_some],
          List.mem_append_right _ (List.mem_singleton_self _)⟩
    · obtain hold | hnew := hbefore
      · obtain ⟨calls, hwork, hmem⟩ | ⟨calls, hmem, hend, hmade⟩ := hdone q hold hcalled
        · exact .inl ⟨calls, by rw [record, if_neg heq, hwork], hmem⟩
        · exact .inr ⟨calls, hmem, hend, hlater hmade⟩
      · exact absurd (Report.called.inj hnew).1 heq

end TaskSystem

end Gemacast.Core
