import InterchainEvents.Async.Program
import InterchainEvents.Platform.Machine

/-!
# Tasks of an event loop

Programs that share a state run as the tasks of one event loop: one at a time, each up to where it
waits, in any order, and new ones may begin at any moment. `trace` is what is observed in a run,
with the number of the task.

Of any run, what is observed of one task is what its program allows (`after_taskTrace`), and the
shared state is the one that the commands of all tasks have made, in the order in which they were
observed, and the one that the tasks saw (`replay_trace`).
-/

namespace Async

open Machine

variable {σ Cmd Err Req : Type} {Resp : Req → Type}

/-- The shared state, and where the tasks are. -/
structure System (σ Cmd Err : Type) {Req : Type} (Resp : Req → Type) where
  state : σ
  tasks : List (Async σ Cmd Err Resp Unit)

/-- What can happen: a new task, or an answer that a task waits for, given for every request that
it may be waiting for. -/
inductive Action (σ Cmd Err : Type) {Req : Type} (Resp : Req → Type) where
  | spawn (p : Async σ Cmd Err Resp Unit)
  | resume (task : ℕ) (answer : (req : Req) → Except Err (Resp req))

/-- The tasks that begin. -/
def Action.spawned : Action σ Cmd Err Resp → Option (Async σ Cmd Err Resp Unit)
  | .spawn p => some p
  | .resume _ _ => none

/-- Nothing runs. -/
def System.initial (s : σ) : System σ Cmd Err Resp := ⟨s, []⟩

variable (apply : Cmd → σ → σ)

/-- What happens. Only a task that waits can be resumed. -/
def step (s : System σ Cmd Err Resp) : Action σ Cmd Err Resp → Option (System σ Cmd Err Resp)
  | .spawn p =>
      let (q, state, _) := p.advance apply s.state
      some ⟨state, s.tasks ++ [q]⟩
  | .resume task answer =>
      match s.tasks[task]? with
      | some (.wait req next) =>
          let (q, state, _) := (next (answer req)).advance apply s.state
          some ⟨state, s.tasks.set task q⟩
      | _ => none

/-- What is observed then, and of which task. -/
def observed (s : System σ Cmd Err Resp) :
    Action σ Cmd Err Resp → List (ℕ × Observation σ Cmd Err Resp)
  | .spawn p => (p.advance apply s.state).2.2.map fun o => (s.tasks.length, o)
  | .resume task answer =>
      match s.tasks[task]? with
      | some (.wait req next) =>
          (.got req (answer req) :: ((next (answer req)).advance apply s.state).2.2).map
            fun o => (task, o)
      | _ => []

/-- What is observed in a run. -/
def trace (h : List (System σ Cmd Err Resp × Action σ Cmd Err Resp)) :
    List (ℕ × Observation σ Cmd Err Resp) :=
  h.flatMap fun e => observed apply e.1 e.2

/-- What is observed of one task. -/
def taskTrace (h : List (System σ Cmd Err Resp × Action σ Cmd Err Resp)) (task : ℕ) :
    List (Observation σ Cmd Err Resp) :=
  ((trace apply h).filter fun e => e.1 = task).map Prod.snd

/-- The programs that have begun, in order. -/
def programs (h : List (System σ Cmd Err Resp × Action σ Cmd Err Resp)) :
    List (Async σ Cmd Err Resp Unit) :=
  h.filterMap fun e => e.2.spawned

variable {apply}

/-! ### One step -/

theorem trace_concat (h : List (System σ Cmd Err Resp × Action σ Cmd Err Resp))
    (s : System σ Cmd Err Resp) (a : Action σ Cmd Err Resp) :
  trace apply (h ++ [(s, a)]) = trace apply h ++ observed apply s a
  := by
  simp [trace]

theorem taskTrace_concat (h : List (System σ Cmd Err Resp × Action σ Cmd Err Resp))
    (s : System σ Cmd Err Resp) (a : Action σ Cmd Err Resp) (task : ℕ) :
  taskTrace apply (h ++ [(s, a)]) task
    = taskTrace apply h task
      ++ ((observed apply s a).filter fun e => e.1 = task).map Prod.snd
  := by
  simp [taskTrace, trace_concat]

theorem filter_map_self (task : ℕ) (l : List (Observation σ Cmd Err Resp)) :
  ((l.map fun o => (task, o)).filter fun e => e.1 = task).map Prod.snd = l
  := by
  induction l with
  | nil => rfl
  | cons o l ih => simp_all

theorem filter_map_of_ne {task task' : ℕ} (h : task' ≠ task)
    (l : List (Observation σ Cmd Err Resp)) :
  ((l.map fun o => (task', o)).filter fun e => e.1 = task).map Prod.snd = []
  := by
  simp [h]

/-- The two things that can happen. -/
theorem step_cases {s s' : System σ Cmd Err Resp} {a : Action σ Cmd Err Resp}
    (h : step apply s a = some s') :
  (∃ p, a = .spawn p ∧ s'.state = (p.advance apply s.state).2.1 ∧
      s'.tasks = s.tasks ++ [(p.advance apply s.state).1] ∧
      observed apply s a = (p.advance apply s.state).2.2.map fun o => (s.tasks.length, o)) ∨
    ∃ task answer req next, a = .resume task answer ∧
      s.tasks[task]? = some (.wait req next) ∧
      s'.state = ((next (answer req)).advance apply s.state).2.1 ∧
      s'.tasks = s.tasks.set task ((next (answer req)).advance apply s.state).1 ∧
      observed apply s a
        = (.got req (answer req) :: ((next (answer req)).advance apply s.state).2.2).map
            fun o => (task, o)
  := by
  cases a with
  | spawn p =>
      left
      obtain rfl := Option.some.inj h
      exact ⟨p, rfl, rfl, rfl, rfl⟩
  | resume task answer =>
      right
      rw [step] at h
      split at h
      case h_1 req next htask =>
          obtain rfl := Option.some.inj h
          refine ⟨task, answer, req, next, rfl, htask, rfl, rfl, ?_⟩
          rw [observed, htask]
      case h_2 => contradiction

variable (apply) in
/-- Running on, a program gets no answer. -/
theorem got_not_mem_advance {α : Type} (p : Async σ Cmd Err Resp α) (s : σ) (req : Req)
    (answer : Except Err (Resp req)) :
  .got req answer ∉ (p.advance apply s).2.2
  := by
  induction p generalizing s with
  | done a => apply List.not_mem_nil
  | fail e => apply List.not_mem_nil
  | act c next ih =>
      rintro (_ | ⟨_, hgot⟩)
      apply ih _ hgot
  | read next ih =>
      rintro (_ | ⟨_, hgot⟩)
      apply ih s s hgot
  | wait req' next _ =>
      rintro (_ | ⟨_, hgot⟩)
      apply List.not_mem_nil hgot

/-- An answer that is got is one that is given. -/
theorem exists_resume_of_got {h : List (System σ Cmd Err Resp × Action σ Cmd Err Resp)} {task : ℕ}
    {req : Req} {answer : Except Err (Resp req)} (hgot : (task, .got req answer) ∈ trace apply h) :
  ∃ e ∈ h, ∃ given, e.2 = .resume task given ∧ given req = answer
  := by
  obtain ⟨⟨s, a⟩, he, hgot⟩ := List.mem_flatMap.mp hgot
  use (s, a), he
  cases a with
  | spawn p =>
      obtain ⟨o, ho, heq⟩ := List.mem_map.mp hgot
      obtain ⟨-, rfl⟩ := Prod.mk.inj heq
      exact (got_not_mem_advance apply p s.state req answer ho).elim
  | resume task' given =>
      simp only [observed] at hgot
      split at hgot
      · obtain ⟨o, ho, heq⟩ := List.mem_map.mp hgot
        obtain ⟨rfl, rfl⟩ := Prod.mk.inj heq
        rcases List.mem_cons.mp ho with heq | ho
        · cases heq
          use given
        · exact (got_not_mem_advance apply _ s.state req answer ho).elim
      · exact (List.not_mem_nil hgot).elim

/-! ### What is observed of one task -/

/-- Every task is where its program is after what was observed of it. -/
theorem after_taskTrace {s₀ : σ} {s : System σ Cmd Err Resp}
    {h : List (System σ Cmd Err Resp × Action σ Cmd Err Resp)}
    (hrun : Run (step apply) (.initial s₀) h s) :
  (programs h).length = s.tasks.length ∧
    (∀ task, s.tasks.length ≤ task → taskTrace apply h task = []) ∧
    ∀ task p, (programs h)[task]? = some p →
      ∃ s' q, s.tasks[task]? = some q ∧ After apply p s' (taskTrace apply h task) q
  := by
  induction hrun with
  | start =>
      refine ⟨rfl, fun _ _ => rfl, ?_⟩
      intro task p hp
      simp [programs] at hp
  | @step h s a s' hrun hs' ih =>
      obtain ⟨hlength, hnone, hafter⟩ := ih
      rcases step_cases hs' with ⟨p, rfl, -, htasks, hobserved⟩ |
        ⟨task, answer, req, next, rfl, htask, -, htasks, hobserved⟩
      · have hprograms : programs (h ++ [(s, .spawn p)]) = programs h ++ [p] := by
          simp [programs, Action.spawned]
        refine ⟨by rw [hprograms, htasks]; simp [hlength], ?_, ?_⟩
        · intro task' htask'
          rw [htasks, List.length_append, List.length_singleton] at htask'
          rw [taskTrace_concat, hobserved, filter_map_of_ne (by omega), List.append_nil]
          apply hnone
          omega
        · intro task' p' hp'
          rw [hprograms] at hp'
          rw [taskTrace_concat, hobserved, htasks]
          by_cases hlast : task' = s.tasks.length
          · -- the new task
            subst hlast
            rw [← hlength, List.getElem?_concat_length] at hp'
            obtain rfl := Option.some.inj hp'
            use s.state, (p.advance apply s.state).1, List.getElem?_concat_length
            rw [filter_map_self, hnone _ (Nat.le_refl _), List.nil_append]
            apply after_advance
          · have hlt : task' < (programs h).length := by
              have := (List.getElem?_eq_some_iff.mp hp').1
              rw [List.length_append, List.length_singleton] at this
              omega
            rw [List.getElem?_append_left hlt] at hp'
            obtain ⟨s₁, q, hq, hafter'⟩ := hafter task' p' hp'
            use s₁, q
            rw [List.getElem?_append_left (hlength ▸ hlt), filter_map_of_ne (Ne.symm hlast),
              List.append_nil]
            exact ⟨hq, hafter'⟩
      · have hprograms : programs (h ++ [(s, .resume task answer)]) = programs h := by
          simp [programs, Action.spawned]
        have hlt := (List.getElem?_eq_some_iff.mp htask).1
        refine ⟨by rw [hprograms, htasks, hlength, List.length_set], ?_, ?_⟩
        · intro task' htask'
          rw [htasks, List.length_set] at htask'
          rw [taskTrace_concat, hobserved, filter_map_of_ne (by omega), List.append_nil]
          apply hnone
          apply htask'
        · intro task' p' hp'
          rw [hprograms] at hp'
          rw [taskTrace_concat, hobserved, htasks]
          obtain ⟨s₁, q, hq, hafter'⟩ := hafter task' p' hp'
          by_cases hsame : task' = task
          · -- the task that goes on
            subst hsame
            obtain rfl := Option.some.inj (htask.symm.trans hq)
            use s₁, ((next (answer req)).advance apply s.state).1
            rw [filter_map_self]
            exact ⟨List.getElem?_set_self hlt, hafter'.resume (after_advance _ _)⟩
          · use s₁, q
            rw [List.getElem?_set_ne (Ne.symm hsame), filter_map_of_ne (Ne.symm hsame),
              List.append_nil]
            exact ⟨hq, hafter'⟩

/-! ### The shared state -/

variable (apply) in
/-- The shared state that the commands among some observations make. -/
def replay (s : σ) : List (ℕ × Observation σ Cmd Err Resp) → σ
  | [] => s
  | (_, .did c) :: l => replay (apply c s) l
  | _ :: l => replay s l

variable (apply) in
/-- Whoever sees the shared state sees the one that the commands before have made. -/
def Consistent (s : σ) : List (ℕ × Observation σ Cmd Err Resp) → Prop
  | [] => True
  | (_, .did c) :: l => Consistent (apply c s) l
  | (_, .saw s') :: l => s' = s ∧ Consistent s l
  | _ :: l => Consistent s l

theorem replay_append (s : σ) (l l' : List (ℕ × Observation σ Cmd Err Resp)) :
  replay apply s (l ++ l') = replay apply (replay apply s l) l'
  := by
  induction l generalizing s with
  | nil => rfl
  | cons e l ih =>
      obtain ⟨task, o⟩ := e
      cases o <;> simp only [List.cons_append, replay, ih]

theorem consistent_append (s : σ) (l l' : List (ℕ × Observation σ Cmd Err Resp)) :
  Consistent apply s (l ++ l')
    ↔ Consistent apply s l ∧ Consistent apply (replay apply s l) l'
  := by
  induction l generalizing s with
  | nil => simp [Consistent, replay]
  | cons e l ih =>
      obtain ⟨task, o⟩ := e
      cases o <;> simp only [List.cons_append, Consistent, replay, ih, and_assoc]

variable (apply) in
/-- Where a task runs on, it makes and sees the shared state. -/
theorem replay_advance (task : ℕ) (p : Async σ Cmd Err Resp Unit) (s : σ) :
  replay apply s ((p.advance apply s).2.2.map fun o => (task, o)) = (p.advance apply s).2.1 ∧
    Consistent apply s ((p.advance apply s).2.2.map fun o => (task, o))
  := by
  induction p generalizing s with
  | done a => exact ⟨rfl, trivial⟩
  | fail e => exact ⟨rfl, trivial⟩
  | act c next ih => apply ih (apply c s)
  | read next ih => exact ⟨(ih s s).1, rfl, (ih s s).2⟩
  | wait req next _ => exact ⟨rfl, trivial⟩

/-- The shared state is the one the commands have made, and the one the tasks saw. -/
theorem replay_trace {s₀ : σ} {s : System σ Cmd Err Resp}
    {h : List (System σ Cmd Err Resp × Action σ Cmd Err Resp)}
    (hrun : Run (step apply) (.initial s₀) h s) :
  replay apply s₀ (trace apply h) = s.state ∧ Consistent apply s₀ (trace apply h)
  := by
  induction hrun with
  | start => exact ⟨rfl, trivial⟩
  | @step h s a s' hrun hs' ih =>
      obtain ⟨hstate, hconsistent⟩ := ih
      rw [trace_concat, replay_append, consistent_append, hstate]
      rcases step_cases hs' with ⟨p, rfl, hstate', -, hobserved⟩ |
        ⟨task, answer, req, next, rfl, -, hstate', -, hobserved⟩
      · obtain ⟨hreplay, hseen⟩ := replay_advance apply s.tasks.length p s.state
        rw [hobserved, hstate']
        exact ⟨hreplay, hconsistent, hseen⟩
      · obtain ⟨hreplay, hseen⟩ :=
          replay_advance apply task (next (answer req)) s.state
        rw [hobserved, hstate']
        exact ⟨hreplay, hconsistent, hseen⟩

end Async
