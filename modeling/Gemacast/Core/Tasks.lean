import Gemacast.Core.Machine
import Gemacast.Core.Program
import Gemacast.Core.Table

/-!
# Tasks on shared state

Programs that share a state take turns: at every turn one of them makes its next operation,
unless the operation has to wait, or a job is taken up as a new task, or the state changes
from outside. Nothing is said about whose turn it is. What a task has done since it took up
its job is read off the reports of the run, and what is left of it follows from that.
-/

namespace Gemacast.Core

/-- Jobs, the programs they are done by, and the operations on the shared state. -/
structure TaskSystem (σ ω : Type) (Op : Type) (Ans : Op → Type) (Id Job χ : Type) where
  /-- The shared state at first. -/
  init : σ
  /-- Make an operation under the answers of the world; none has to wait. -/
  execute : ω → σ → (op : Op) → Option (σ × Ans op)
  /-- The program of a job. -/
  program : Job → Program Op Ans Unit
  /-- What taking up a job does to the shared state; none if it cannot be taken up. -/
  accept : σ → Id → Job → Option σ
  /-- The task may take up another job when it has ended. -/
  again : Id → Bool
  /-- A change from outside. -/
  outside : σ → χ → σ

/-- A task: the job it took up and what is left of its program. -/
structure Task (Op : Type) (Ans : Op → Type) (Job : Type) where
  /-- The job. -/
  job : Job
  /-- What is left to do. -/
  rest : Program Op Ans Unit

/-- The shared state and the tasks on it. -/
structure TaskState (σ : Type) (Op : Type) (Ans : Op → Type) (Id Job : Type) [DecidableEq Id] where
  /-- The shared state. -/
  shared : σ
  /-- The tasks so far, also those that ended. -/
  tasks : Table Id (Task Op Ans Job)

/-- What happens next. -/
inductive Turn (ω Id Job χ : Type)
  | start (id : Id) (job : Job)
  | run (id : Id) (world : ω)
  | outside (change : χ)

/-- What happened. -/
inductive Report (Op : Type) (Ans : Op → Type) (Id Job χ : Type)
  | idle
  | started (id : Id) (job : Job)
  | called (id : Id) (job : Job) (call : Called Op Ans)
  | changed (change : χ)

namespace TaskSystem

variable {σ ω Op Id Job χ : Type} {Ans : Op → Type} [DecidableEq Id]

/-- The task can take up a job. -/
def vacant (T : TaskSystem σ ω Op Ans Id Job χ) (s : TaskState σ Op Ans Id Job) (id : Id) : Bool :=
  match s.tasks.lookup id with
  | none => true
  | some ⟨_, .done _⟩ => T.again id
  | some ⟨_, .call _ _⟩ => false

/-- Take up a job. -/
def start (T : TaskSystem σ ω Op Ans Id Job χ) (s : TaskState σ Op Ans Id Job) (id : Id)
    (job : Job) : TaskState σ Op Ans Id Job × Report Op Ans Id Job χ :=
  if T.vacant s id then
    match T.accept s.shared id job with
    | none => (s, .idle)
    | some shared => (⟨shared, s.tasks.insert id ⟨job, T.program job⟩⟩, .started id job)
  else (s, .idle)

/-- Make the next operation of a task. -/
def advance (T : TaskSystem σ ω Op Ans Id Job χ) (s : TaskState σ Op Ans Id Job) (id : Id)
    (world : ω) : TaskState σ Op Ans Id Job × Report Op Ans Id Job χ :=
  match s.tasks.lookup id with
  | some ⟨job, .call op next⟩ =>
    match T.execute world s.shared op with
    | none => (s, .idle)
    | some (shared, answer) =>
      (⟨shared, s.tasks.insert id ⟨job, next answer⟩⟩, .called id job ⟨op, answer⟩)
  | _ => (s, .idle)

/-- One turn. -/
def step (T : TaskSystem σ ω Op Ans Id Job χ) (s : TaskState σ Op Ans Id Job) :
    Turn ω Id Job χ → TaskState σ Op Ans Id Job × Report Op Ans Id Job χ
  | .start id job => T.start s id job
  | .run id world => T.advance s id world
  | .outside change => ({ s with shared := T.outside s.shared change }, .changed change)

/-- The tasks as a machine. -/
def machine (T : TaskSystem σ ω Op Ans Id Job χ) :
    Machine (TaskState σ Op Ans Id Job) (Turn ω Id Job χ) (Report Op Ans Id Job χ) :=
  ⟨⟨T.init, ∅⟩, T.step⟩

/-- An event of a run of tasks. -/
abbrev TaskEvent (σ ω Op : Type) (Ans : Op → Type) (Id Job χ : Type) [DecidableEq Id] :=
  Event (TaskState σ Op Ans Id Job) (Turn ω Id Job χ) (Report Op Ans Id Job χ)

/-- What a task has done, one report later. -/
def record (id : Id) (work : Option (Job × List (Called Op Ans))) :
    Report Op Ans Id Job χ → Option (Job × List (Called Op Ans))
  | .started id' job => if id' = id then some (job, []) else work
  | .called id' _ call =>
    if id' = id then work.map fun w => (w.1, w.2 ++ [call]) else work
  | _ => work

/-- The job a task took up last, and the calls it made on it since. -/
def work (id : Id) (h : List (TaskEvent σ ω Op Ans Id Job χ)) :
    Option (Job × List (Called Op Ans)) :=
  h.foldl (fun w e => record id w e.output) none

section Work

variable {T : TaskSystem σ ω Op Ans Id Job χ} {s : TaskState σ Op Ans Id Job} {id : Id} {job : Job}
  {h : List (TaskEvent σ ω Op Ans Id Job χ)} {e : TaskEvent σ ω Op Ans Id Job χ}
  {call : Called Op Ans} {calls : List (Called Op Ans)}

@[simp] theorem work_nil : work id ([] : List (TaskEvent σ ω Op Ans Id Job χ)) = none := rfl

@[simp] theorem work_concat : work id (h ++ [e]) = record id (work id h) e.output := by
  rw [work, List.foldl_append]
  rfl

/-- What one turn can do. -/
inductive Outcome (T : TaskSystem σ ω Op Ans Id Job χ) (s : TaskState σ Op Ans Id Job) :
    Turn ω Id Job χ → TaskState σ Op Ans Id Job → Report Op Ans Id Job χ → Prop
  | idle (turn) : Outcome T s turn s .idle
  | started {id job shared} (hvacant : T.vacant s id = true)
      (haccept : T.accept s.shared id job = some shared) :
      Outcome T s (.start id job) ⟨shared, s.tasks.insert id ⟨job, T.program job⟩⟩ (.started id job)
  | called {id job op next world shared answer}
      (htask : s.tasks.lookup id = some ⟨job, .call op next⟩)
      (hexecute : T.execute world s.shared op = some (shared, answer)) :
      Outcome T s (.run id world) ⟨shared, s.tasks.insert id ⟨job, next answer⟩⟩
        (.called id job ⟨op, answer⟩)
  | changed (change) : Outcome T s (.outside change) ⟨T.outside s.shared change, s.tasks⟩
      (.changed change)

theorem step_outcome (T : TaskSystem σ ω Op Ans Id Job χ) (s : TaskState σ Op Ans Id Job)
    (turn : Turn ω Id Job χ) : T.Outcome s turn (T.step s turn).1 (T.step s turn).2 := by
  cases turn with
  | start id job =>
    rw [step, start]
    split
    · split
      · exact .idle _
      · exact .started ‹_› ‹_›
    · exact .idle _
  | run id world =>
    rw [step, advance]
    split
    · split
      · exact .idle _
      · exact .called ‹_› ‹_›
    · exact .idle _
  | outside change => exact .changed change

/-- A task that can take up a job has none, or is done with its last one. -/
theorem vacant_iff : T.vacant s id = true ↔ s.tasks.lookup id = none ∨
    ∃ job result, s.tasks.lookup id = some ⟨job, .done result⟩ ∧ T.again id = true := by
  unfold vacant
  cases htask : s.tasks.lookup id with
  | none => simp
  | some task =>
    obtain ⟨job, rest⟩ := task
    cases rest <;> simp

/-- Every task is where the calls it made on its job have led it. -/
def Working (T : TaskSystem σ ω Op Ans Id Job χ) (h : List (TaskEvent σ ω Op Ans Id Job χ))
    (s : TaskState σ Op Ans Id Job) : Prop :=
  ∀ id, match s.tasks.lookup id with
    | none => work id h = none
    | some task => ∃ calls, work id h = some (task.job, calls) ∧
        (T.program task.job).Path calls task.rest

theorem Working.nil (T : TaskSystem σ ω Op Ans Id Job χ) : Working T [] T.machine.init :=
  fun _ => rfl

theorem Working.step (hs : Working T h s) (turn : Turn ω Id Job χ) :
    Working T (h ++ [T.machine.eventAt s turn]) (T.machine.step s turn).1 := by
  intro id'
  have hid := hs id'
  rw [work_concat, Machine.eventAt_output]
  change match (T.step s turn).1.tasks.lookup id' with
    | none => record id' (work id' h) (T.step s turn).2 = none
    | some task => ∃ calls, record id' (work id' h) (T.step s turn).2 = some (task.job, calls) ∧
        (T.program task.job).Path calls task.rest
  generalize hnext : (T.step s turn).1 = next
  generalize hreport : (T.step s turn).2 = report
  have houtcome := step_outcome T s turn
  rw [hnext, hreport] at houtcome
  cases houtcome with
  | idle => exact hid
  | @started id job shared hvacant haccept =>
    rw [Table.lookup_insert_eq]
    by_cases heq : id' = id
    · rw [if_pos heq]
      exact ⟨[], by simp [record, heq], .start⟩
    · rw [if_neg heq]
      simpa only [record, if_neg (Ne.symm heq)] using hid
  | @called id job op rest world shared answer htask hexecute =>
    rw [Table.lookup_insert_eq]
    by_cases heq : id' = id
    · subst heq
      rw [htask] at hid
      obtain ⟨calls, hwork, hpath⟩ := hid
      rw [if_pos rfl]
      exact ⟨calls ++ [⟨op, answer⟩], by simp [record, hwork], hpath.step answer⟩
    · rw [if_neg heq]
      simpa only [record, if_neg (Ne.symm heq)] using hid
  | changed => exact hid

/-- Every task of a run is where its calls have led it, at each of its events. -/
theorem working_before {is : List (Turn ω Id Job χ)}
    {pre post : List (TaskEvent σ ω Op Ans Id Job χ)}
    (hrun : T.machine.events is = pre ++ e :: post) :
    Working T pre e.before :=
  T.machine.history_before (p := fun _ _ => True) (Working.nil T)
    (fun _ _ turn hs _ => hs.step turn) (fun _ _ _ _ => trivial) hrun

/-- A call of a run was the next operation of its task, and was executed. -/
theorem called_of_mem {is : List (Turn ω Id Job χ)} (he : e ∈ T.machine.events is)
    (hcalled : e.output = .called id job call) : ∃ next world,
      e.before.tasks.lookup id = some ⟨job, .call call.op next⟩ ∧
        T.execute world e.before.shared call.op = some (e.after.shared, call.answer) := by
  have heq := T.machine.eq_eventAt_of_mem he
  have hafter : (T.step e.before e.input).1 = e.after := (congrArg Event.after heq).symm
  have hreport : (T.step e.before e.input).2 = .called id job call :=
    (congrArg Event.output heq).symm.trans hcalled
  have houtcome := step_outcome T e.before e.input
  rw [hreport, hafter] at houtcome
  generalize e.input = turn at houtcome
  generalize e.after = after at houtcome ⊢
  cases houtcome with
  | @called _ _ op next world shared answer htask hexecute => exact ⟨next, world, htask, hexecute⟩

/-- A job of a run was taken up by a task that could. -/
theorem started_of_mem {is : List (Turn ω Id Job χ)} (he : e ∈ T.machine.events is)
    (hstarted : e.output = .started id job) : T.vacant e.before id = true ∧
      T.accept e.before.shared id job = some e.after.shared := by
  have heq := T.machine.eq_eventAt_of_mem he
  have hafter : (T.step e.before e.input).1 = e.after := (congrArg Event.after heq).symm
  have hreport : (T.step e.before e.input).2 = .started id job :=
    (congrArg Event.output heq).symm.trans hstarted
  have houtcome := step_outcome T e.before e.input
  rw [hreport, hafter] at houtcome
  generalize e.input = turn at houtcome
  generalize e.after = after at houtcome ⊢
  cases houtcome with
  | started hvacant haccept => exact ⟨hvacant, haccept⟩

/-- What a task has done since it took up its job, it has done after that. -/
theorem work_since {pre mid : List (TaskEvent σ ω Op Ans Id Job χ)}
    (hstarted : e.output = .started id job)
    (hnone : ∀ e' ∈ mid, ∀ job', e'.output ≠ .started id job') :
    ∃ calls, work id (pre ++ e :: mid) = some (job, calls) ∧
      ∀ call ∈ calls, ∃ e' ∈ mid, ∃ job', e'.output = .called id job' call := by
  induction mid using List.reverseRecOn with
  | nil => exact ⟨[], by rw [work_concat, hstarted, record, if_pos rfl], nofun⟩
  | append_singleton mid last ih =>
    obtain ⟨calls, hwork, hcalls⟩ := ih fun e' he' => hnone e' (List.mem_append_left _ he')
    have hkept : ∀ call ∈ calls, ∃ e' ∈ mid ++ [last], ∃ job',
        e'.output = .called id job' call := by
      intro call hcall
      obtain ⟨e', he', hcalled⟩ := hcalls call hcall
      exact ⟨e', List.mem_append_left _ he', hcalled⟩
    rw [← List.cons_append, ← List.append_assoc, work_concat, hwork]
    cases hlast : last.output with
    | idle => exact ⟨calls, rfl, hkept⟩
    | changed change => exact ⟨calls, rfl, hkept⟩
    | started id' job' =>
      have hne : id' ≠ id := by
        rintro rfl
        exact hnone last (List.mem_append_right _ List.mem_cons_self) job' hlast
      exact ⟨calls, by rw [record, if_neg hne], hkept⟩
    | called id' job' call =>
      by_cases hid : id' = id
      · subst hid
        refine ⟨calls ++ [call], by rw [record, if_pos rfl, Option.map_some], fun c hc => ?_⟩
        obtain hold | hnew := List.mem_append.mp hc
        · exact hkept c hold
        · obtain rfl := List.mem_singleton.mp hnew
          exact ⟨last, List.mem_append_right _ List.mem_cons_self, job', hlast⟩
      · exact ⟨calls, by rw [record, if_neg hid], hkept⟩

/-- What a task has done on its job, it has done in the run. -/
theorem called_of_work (hwork : work id h = some (job, calls)) (hcall : call ∈ calls) :
    ∃ e ∈ h, ∃ job', e.output = .called id job' call := by
  induction h using List.reverseRecOn generalizing job calls with
  | nil => nomatch hwork
  | append_singleton h last ih =>
    have hold : ∀ {job' calls'}, work id h = some (job', calls') → call ∈ calls' →
        ∃ e ∈ h ++ [last], ∃ job', e.output = .called id job' call := by
      intro job' calls' hbefore hmem
      obtain ⟨e, he, hcalled⟩ := ih hbefore hmem
      exact ⟨e, List.mem_append_left _ he, hcalled⟩
    rw [work_concat] at hwork
    cases hlast : last.output with
    | idle | changed =>
      rw [hlast] at hwork
      exact hold hwork hcall
    | started id' job' =>
      rw [hlast, record] at hwork
      split at hwork
      · obtain ⟨-, rfl⟩ := Prod.mk.inj (Option.some.inj hwork)
        nomatch hcall
      · exact hold hwork hcall
    | called id' job' new =>
      rw [hlast, record] at hwork
      split at hwork
      · next heq =>
        obtain ⟨⟨job'', calls''⟩, hbefore, hnow⟩ := Option.map_eq_some_iff.mp hwork
        obtain ⟨-, rfl⟩ := Prod.mk.inj hnow
        obtain hmem | hmem := List.mem_append.mp hcall
        · exact hold hbefore hmem
        · obtain rfl := List.mem_singleton.mp hmem
          exact ⟨last, List.mem_append_right _ List.mem_cons_self, job', heq ▸ hlast⟩
      · exact hold hwork hcall

/-- What a task that takes up one job has done so far, it has done on it. -/
theorem mem_work {is : List (Turn ω Id Job χ)} (honce : T.again id = false)
    {pre post : List (TaskEvent σ ω Op Ans Id Job χ)}
    (hrun : T.machine.events is = pre ++ e :: post)
    {e' : TaskEvent σ ω Op Ans Id Job χ} (he' : e' ∈ pre)
    (hcalled : e'.output = .called id job call) :
    ∃ job' calls, work id pre = some (job', calls) ∧ call ∈ calls := by
  refine (T.machine.history_before (I := fun h s => Working T h s ∧
    ∀ e' ∈ h, ∀ job call, e'.output = .called id job call →
      ∃ job' calls, work id h = some (job', calls) ∧ call ∈ calls) (p := fun _ _ => True)
    ⟨Working.nil T, nofun⟩ ?_ (fun _ _ _ _ => trivial) hrun).2 e' he' job call hcalled
  rintro h s turn ⟨hworking, hdone⟩ -
  refine ⟨hworking.step turn, fun e' he' job call hcalled => ?_⟩
  rw [work_concat, Machine.eventAt_output]
  change ∃ job' calls, record id (work id h) (T.step s turn).2 = some (job', calls) ∧ call ∈ calls
  have hbefore : e' ∈ h ∨ (T.step s turn).2 = .called id job call := by
    obtain hold | hnew := List.mem_append.mp he'
    · exact .inl hold
    · obtain rfl := List.mem_singleton.mp hnew
      exact .inr hcalled
  have hid := hworking id
  have houtcome := step_outcome T s turn
  generalize (T.step s turn).1 = next at houtcome
  generalize (T.step s turn).2 = report at houtcome hbefore ⊢
  cases houtcome with
  | idle | changed =>
    obtain hold | hnew := hbefore
    · exact hdone e' hold job call hcalled
    · nomatch hnew
  | @started id' job' shared hvacant haccept =>
    obtain hold | hnew := hbefore
    · obtain ⟨job'', calls, hwork, hmem⟩ := hdone e' hold job call hcalled
      have hne : id' ≠ id := by
        rintro rfl
        obtain hnone | ⟨job, result, -, hagain⟩ := vacant_iff.mp hvacant
        · rw [hnone] at hid
          nomatch hid.symm.trans hwork
        · nomatch honce.symm.trans hagain
      exact ⟨job'', calls, by rw [record, if_neg hne, hwork], hmem⟩
    · nomatch hnew
  | @called id' job' op rest world shared answer htask hexecute =>
    by_cases heq : id' = id
    · subst heq
      rw [htask] at hid
      obtain ⟨calls, hwork, -⟩ := hid
      refine ⟨job', calls ++ [⟨op, answer⟩], by rw [record, if_pos rfl, hwork, Option.map_some], ?_⟩
      obtain hold | hnew := hbefore
      · obtain ⟨job'', calls', hwork', hmem⟩ := hdone e' hold job call hcalled
        obtain ⟨-, rfl⟩ := Prod.mk.inj (Option.some.inj (hwork.symm.trans hwork'))
        exact List.mem_append_left _ hmem
      · obtain ⟨-, -, rfl⟩ := Report.called.inj hnew
        exact List.mem_append_right _ List.mem_cons_self
    · obtain hold | hnew := hbefore
      · obtain ⟨job'', calls, hwork, hmem⟩ := hdone e' hold job call hcalled
        exact ⟨job'', calls, by rw [record, if_neg heq, hwork], hmem⟩
      · exact absurd (Report.called.inj hnew).1 heq

/-- A task has taken up its job. -/
theorem job_of_task {P : Id → Job → Prop}
    (haccept : ∀ s id job s', T.accept s id job = some s' → P id job)
    {is : List (Turn ω Id Job χ)} (he : e ∈ T.machine.events is) :
    ∀ id task, e.before.tasks.lookup id = some task → P id task.job := by
  refine ((T.machine.invariant (I := fun s => ∀ id task, s.tasks.lookup id = some task →
    P id task.job) (p := fun _ _ => True) nofun ?_ fun _ _ => trivial).1 e he).1
  rintro s turn hs -
  change ∀ id task, (T.step s turn).1.tasks.lookup id = some task → P id task.job
  have houtcome := step_outcome T s turn
  generalize (T.step s turn).1 = next at houtcome ⊢
  generalize (T.step s turn).2 = report at houtcome
  cases houtcome with
  | idle | changed => exact hs
  | @started id' job' shared hvacant haccepted =>
    intro id task hlookup
    rw [Table.lookup_insert_eq] at hlookup
    split at hlookup
    · next heq =>
      obtain rfl := Option.some.inj hlookup
      exact heq ▸ haccept _ _ _ _ haccepted
    · exact hs id task hlookup
  | @called id' job' op rest world shared answer htask hexecute =>
    intro id task hlookup
    rw [Table.lookup_insert_eq] at hlookup
    split at hlookup
    · next heq =>
      obtain rfl := Option.some.inj hlookup
      have hjob : P id' job' := hs id' _ htask
      exact heq ▸ hjob
    · exact hs id task hlookup

/-- What a task of a run does, it does under the contract of its job, after its calls so far. -/
theorem contract_of_called {φ : List (Called Op Ans) → Op → Prop}
    {ψ : List (Called Op Ans) → Unit → Prop} (hjob : (T.program job).Obeys φ ψ [])
    {is : List (Turn ω Id Job χ)} {pre post : List (TaskEvent σ ω Op Ans Id Job χ)}
    (hrun : T.machine.events is = pre ++ e :: post) (hcalled : e.output = .called id job call) :
    ∃ calls, work id pre = some (job, calls) ∧ φ calls call.op := by
  have he : e ∈ T.machine.events is := hrun ▸ List.mem_append_right _ List.mem_cons_self
  obtain ⟨next, world, htask, -⟩ := called_of_mem he hcalled
  have hworking := working_before hrun id
  rw [htask] at hworking
  obtain ⟨calls, hwork, hpath⟩ := hworking
  exact ⟨calls, hwork, hpath.at_call hjob⟩

end Work

end TaskSystem

end Gemacast.Core
