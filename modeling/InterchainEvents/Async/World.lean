import InterchainEvents.Async.Tasks
import Mathlib.Logic.Relation

/-!
# Tasks in a world

The requests of the tasks of an event loop go to a world, which answers them, and which changes by
itself and by the requests of all tasks. A `World` says how it may change and what it may answer.

`Achieves` is the logic of a program in a world: whatever the world and the other tasks do while it
waits, in the end it has achieved something. It is computed along the program and composes with it
(`achieves_bind`, `achieves_handle`, `achieves_forEach`), and it says what it should of every
program that runs as one of the tasks of an event loop in that world (`Achieves.runs`).
-/

namespace Async

open Relation

variable {σ Cmd Err Req ω : Type} {Resp : Req → Type} {α β : Type}

/-- A world: how it may have changed after a while, and how a request may be answered, given the
world in which it was asked, the one in which it is answered, and what that one becomes by it. -/
structure World (ω Err : Type) {Req : Type} (Resp : Req → Type) where
  changes : ω → ω → Prop
  serves : (req : Req) → (asked : ω) → Except Err (Resp req) → ω → ω → Prop
  refl : ∀ w, changes w w
  trans : ∀ {w w' w''}, changes w w' → changes w' w'' → changes w w''
  changes_of_serves : ∀ {req asked answer w w'}, serves req asked answer w w' → changes w w'

variable (W : World ω Err Resp) (apply : Cmd → σ → σ)

/-! ### The logic -/

/-- Begun in a world, on a shared state, the program ends with `Q` or, with an exception, `E`. -/
def Achieves (Q : α → σ → ω → Prop) (E : Err → σ → ω → Prop) :
    Async σ Cmd Err Resp α → σ → ω → Prop
  | .done a, s, w => Q a s w
  | .fail e, s, w => E e s w
  | .act c next, s, w => Achieves Q E next (apply c s) w
  | .read next, s, w => Achieves Q E (next s) s w
  | .wait req next, _, w => ∀ answer w₁ w₂ s', W.changes w w₁ → W.serves req w answer w₁ w₂ →
      Achieves Q E (next answer) s' w₂

section Logic

variable {W apply} {Q Q' : α → σ → ω → Prop} {E E' : Err → σ → ω → Prop} {s : σ} {w : ω}

/-- What is achieved may be weakened. -/
theorem Achieves.mono {p : Async σ Cmd Err Resp α} (hp : Achieves W apply Q E p s w)
    (hQ : ∀ a s w, Q a s w → Q' a s w) (hE : ∀ e s w, E e s w → E' e s w) :
  Achieves W apply Q' E' p s w
  := by
  induction p generalizing s w with
  | done a => apply hQ a s w hp
  | fail e => apply hE e s w hp
  | act c next ih => apply ih hp
  | read next ih => apply ih s hp
  | wait req next ih =>
      intro answer w₁ w₂ s' hw₁ hw₂
      apply ih answer (hp answer w₁ w₂ s' hw₁ hw₂)

theorem achieves_bind {R : β → σ → ω → Prop} {p : Async σ Cmd Err Resp α}
    {f : α → Async σ Cmd Err Resp β} :
  Achieves W apply R E (p >>= f) s w
    ↔ Achieves W apply (fun a s w => Achieves W apply R E (f a) s w) E p s w
  := by
  show Achieves W apply R E (bind p f) s w ↔ _
  induction p generalizing s w with
  | done a => exact Iff.rfl
  | fail e => exact Iff.rfl
  | act c next ih => simp only [bind, Achieves, ih]
  | read next ih => simp only [bind, Achieves, ih]
  | wait req next ih => simp only [bind, Achieves, ih]

theorem achieves_handle {p : Async σ Cmd Err Resp α} {f : Err → Async σ Cmd Err Resp α} :
  Achieves W apply Q E (p.handle f) s w
    ↔ Achieves W apply Q (fun e s w => Achieves W apply Q E (f e) s w) p s w
  := by
  induction p generalizing s w with
  | done a => exact Iff.rfl
  | fail e => exact Iff.rfl
  | act c next ih => simp only [handle, Achieves, ih]
  | read next ih => simp only [handle, Achieves, ih]
  | wait req next ih => simp only [handle, Achieves, ih]

/-- A request is answered, after a while. -/
theorem achieves_request {req : Req} {Q : Resp req → σ → ω → Prop} :
  Achieves W apply Q E (request req) s w
    ↔ ∀ answer w₁ w₂ s', W.changes w w₁ → W.serves req w answer w₁ w₂ →
        (∀ a, answer = .ok a → Q a s' w₂) ∧ ∀ e, answer = .error e → E e s' w₂
  := by
  apply forall_congr'
  intro answer
  cases answer with
  | ok a => simp [Achieves]
  | error e => simp [Achieves]

theorem achieves_fromExcept {r : Except Err α} :
  Achieves W apply Q E (fromExcept r) s w
    ↔ (∀ a, r = .ok a → Q a s w) ∧ ∀ e, r = .error e → E e s w
  := by
  cases r with
  | ok a => simp [fromExcept, Achieves]
  | error e => simp [fromExcept, Achieves]

/-- A loop keeps what each of its rounds keeps. -/
theorem achieves_forEach {xs : List β} {f : β → Async σ Cmd Err Resp Unit}
    {I : List β → ω → Prop} (hI : I xs w)
    (hround : ∀ x rest s w, I (x :: rest) w →
      Achieves W apply (fun _ _ w => I rest w) E (f x) s w) :
  Achieves W apply (fun _ _ w => I [] w) E (forEach xs f) s w
  := by
  induction xs generalizing s w with
  | nil => apply hI
  | cons x xs ih =>
      apply achieves_bind.mpr
      apply (hround x xs s w hI).mono
      · intro _ s' w' hI'
        apply ih hI'
      · intro e s' w' he
        apply he

/-- An answer is got by asking repeatedly, if at every time there is one or it pays to pause. -/
theorem achieves_retry {ask : Async σ Cmd Err Resp (Option α)} {pause : Async σ Cmd Err Resp Unit}
    {giveUp : Async σ Cmd Err Resp α} {I : ℕ → ω → Prop}
    (hask : ∀ n s w, I (n + 1) w → Achieves W apply (fun r s w => (∀ a, r = some a → Q a s w) ∧
      (r = none → Achieves W apply (fun _ _ w => I n w) E pause s w)) E ask s w)
    (hgiveUp : ∀ s w, I 0 w → Achieves W apply Q E giveUp s w) {attempts : ℕ} (hI : I attempts w) :
  Achieves W apply Q E (retry ask pause giveUp attempts) s w
  := by
  induction attempts generalizing s w with
  | zero => apply hgiveUp s w hI
  | succ attempts ih =>
      apply achieves_bind.mpr
      apply (hask attempts s w hI).mono
      · rintro (_ | a) s' w' ⟨hsome, hnone⟩
        · apply achieves_bind.mpr
          apply (hnone rfl).mono
          · intro _ s'' w'' hI'
            apply ih hI'
          · exact fun _ _ _ he => he
        · apply hsome a rfl
      · exact fun _ _ _ he => he

/-- What does not change holds in the end, whatever the program does. -/
theorem achieves_of_stable {I : ω → Prop} (hstable : ∀ w w', W.changes w w' → I w → I w')
    (hw : I w) (p : Async σ Cmd Err Resp α) (hQ : ∀ a s w, I w → Q a s w)
    (hE : ∀ e s w, I w → E e s w) :
  Achieves W apply Q E p s w
  := by
  induction p generalizing s w with
  | done a => apply hQ a s w hw
  | fail e => apply hE e s w hw
  | act c next ih => apply ih hw
  | read next ih => apply ih s hw
  | wait req next ih =>
      intro answer w₁ w₂ s' hw₁ hw₂
      apply ih answer
      apply hstable w₁ w₂ (W.changes_of_serves hw₂) (hstable w w₁ hw₁ hw)

/-- A program that has run on achieves the same. -/
theorem Achieves.advance {p : Async σ Cmd Err Resp α} (hp : Achieves W apply Q E p s w) :
  Achieves W apply Q E (p.advance apply s).1 (p.advance apply s).2.1 w
  := by
  induction p generalizing s with
  | done a => apply hp
  | fail e => apply hp
  | act c next ih => apply ih hp
  | read next ih => apply ih s hp
  | wait req next _ => apply hp

end Logic

/-! ### Runs -/

/-- An event loop in a world, and for each task the world in which it asked for what it waits
for. -/
structure Joint (σ Cmd Err ω : Type) {Req : Type} (Resp : Req → Type) where
  loop : System σ Cmd Err Resp
  world : ω
  since : List ω

variable {W apply}

/-- A program begins as a task. -/
def Joint.spawn (apply : Cmd → σ → σ) (j : Joint σ Cmd Err ω Resp)
    (p : Async σ Cmd Err Resp Unit) : Joint σ Cmd Err ω Resp :=
  let (q, state, _) := p.advance apply j.loop.state
  ⟨⟨state, j.loop.tasks ++ [q]⟩, j.world, j.since ++ [j.world]⟩

variable (W apply) in
/-- What can happen: the world changes, a task begins, or the world answers one that waits. -/
inductive Moves : Joint σ Cmd Err ω Resp → Joint σ Cmd Err ω Resp → Prop
  | change {j w'} : W.changes j.world w' → Moves j { j with world := w' }
  | spawn {j} (p) : Moves j (j.spawn apply p)
  | answer {j task req next asked loop w'} {answer : (req : Req) → Except Err (Resp req)} :
      j.loop.tasks[task]? = some (.wait req next) → j.since[task]? = some asked →
      W.serves req asked (answer req) j.world w' →
      step apply j.loop (.resume task answer) = some loop →
      Moves j ⟨loop, w', j.since.set task w'⟩

variable (apply) in
/-- Commands lead from one shared state to the other. -/
def Follows : σ → σ → Prop :=
  ReflTransGen fun s s' => ∃ c, s' = apply c s

theorem follows_advance (p : Async σ Cmd Err Resp α) (s : σ) :
  Follows apply s (p.advance apply s).2.1
  := by
  induction p generalizing s with
  | done a => exact .refl
  | fail e => exact .refl
  | act c next ih => exact .head ⟨c, rfl⟩ (ih (apply c s))
  | read next ih => apply ih s s
  | wait req next _ => exact .refl

/-- The task has been where it is since an earlier world and an earlier shared state, and achieves
something from there. -/
def Joint.Achieving (W : World ω Err Resp) (apply : Cmd → σ → σ) (Q : Unit → σ → ω → Prop)
    (E : Err → σ → ω → Prop) (task : ℕ) (j : Joint σ Cmd Err ω Resp) : Prop :=
  j.since.length = j.loop.tasks.length ∧ ∃ q w s, j.loop.tasks[task]? = some q ∧
    j.since[task]? = some w ∧ W.changes w j.world ∧ Follows apply s j.loop.state ∧
    Achieves W apply Q E q s w

/-- A task that waits achieves the same on any shared state. -/
theorem Achieves.of_wait {Q : α → σ → ω → Prop} {E : Err → σ → ω → Prop} {req : Req}
    {next : Except Err (Resp req) → Async σ Cmd Err Resp α} {s : σ} {w : ω}
    (h : Achieves W apply Q E (.wait req next) s w) {answer : Except Err (Resp req)} {w₁ w₂ : ω}
    (hw₁ : W.changes w w₁) (hw₂ : W.serves req w answer w₁ w₂) (s' : σ) :
  Achieves W apply Q E (next answer) s' w₂
  := h answer w₁ w₂ s' hw₁ hw₂

/-- What happens keeps what a task achieves. -/
theorem Moves.achieving {Q : Unit → σ → ω → Prop} {E : Err → σ → ω → Prop} {task : ℕ}
    {j j' : Joint σ Cmd Err ω Resp} (hmoves : Moves W apply j j')
    (h : j.Achieving W apply Q E task) :
  j'.Achieving W apply Q E task
  := by
  obtain ⟨hlength, q, w, s, hq, hw, hchanges, hfollows, hachieves⟩ := h
  have hlt := (List.getElem?_eq_some_iff.mp hq).1
  cases hmoves with
  | change hw' =>
      exact ⟨hlength, q, w, s, hq, hw, W.trans hchanges hw', hfollows, hachieves⟩
  | spawn p =>
      refine ⟨by simp [Joint.spawn, hlength], q, w, s, ?_, ?_, hchanges,
        hfollows.trans (follows_advance p _), hachieves⟩
      · rw [← hq]
        apply List.getElem?_append_left hlt
      · rw [← hw]
        apply List.getElem?_append_left (hlength ▸ hlt)
  | @answer task' req next asked loop w' answer htask hasked hserves hstep =>
      obtain ⟨_, hfalse, -⟩ | ⟨_, _, req', next', heq, htask', hstate, htasks, -⟩ :=
        step_cases hstep
      · cases hfalse
      cases heq
      rw [htask] at htask'
      cases htask'
      have hlength' : (j.since.set task' w').length = loop.tasks.length := by
        rw [htasks, List.length_set, List.length_set, hlength]
      use hlength'
      by_cases hsame : task = task'
      · -- the task goes on
        subst hsame
        obtain rfl := Option.some.inj (htask.symm.trans hq)
        obtain rfl := Option.some.inj (hasked.symm.trans hw)
        refine ⟨_, w', _, ?_, List.getElem?_set_self (hlength ▸ hlt), W.refl w', ?_,
          (hachieves.of_wait hchanges hserves j.loop.state).advance⟩
        · show loop.tasks[task]? = _
          rw [htasks]
          apply List.getElem?_set_self hlt
        · show Follows apply _ loop.state
          rw [hstate]
          exact .refl
      · refine ⟨q, w, s, ?_, ?_, W.trans hchanges (W.changes_of_serves hserves), ?_, hachieves⟩
        · show loop.tasks[task]? = _
          rw [htasks, List.getElem?_set_ne (Ne.symm hsame), hq]
        · rw [List.getElem?_set_ne (Ne.symm hsame), hw]
        · show Follows apply _ loop.state
          rw [hstate]
          apply hfollows.trans (follows_advance _ _)

/-- What a program achieves, it achieves as a task, whatever the world and the other tasks do: when
it is done, that held in an earlier world and an earlier shared state. -/
theorem Achieves.runs {Q : Unit → σ → ω → Prop} {E : Err → σ → ω → Prop}
    {p : Async σ Cmd Err Resp Unit} {j j' : Joint σ Cmd Err ω Resp}
    (hp : Achieves W apply Q E p j.loop.state j.world)
    (hlength : j.since.length = j.loop.tasks.length)
    (hruns : ReflTransGen (Moves W apply) (j.spawn apply p) j') :
  (j'.loop.tasks[j.loop.tasks.length]? = some (.done ()) →
      ∃ s w, Q () s w ∧ Follows apply s j'.loop.state ∧ W.changes w j'.world) ∧
    ∀ e, j'.loop.tasks[j.loop.tasks.length]? = some (.fail e) →
      ∃ s w, E e s w ∧ Follows apply s j'.loop.state ∧ W.changes w j'.world
  := by
  have hachieving : j'.Achieving W apply Q E j.loop.tasks.length := by
    induction hruns with
    | refl =>
        refine ⟨by simp [Joint.spawn, hlength], _, j.world, _, List.getElem?_concat_length, ?_,
          W.refl _, .refl, hp.advance⟩
        rw [← hlength]
        apply List.getElem?_concat_length
    | tail _ hmoves ih => apply hmoves.achieving ih
  obtain ⟨-, q, w, s, hq, -, hchanges, hfollows, hachieves⟩ := hachieving
  constructor
  · intro hdone
    obtain rfl := Option.some.inj (hq.symm.trans hdone)
    exact ⟨s, w, hachieves, hfollows, hchanges⟩
  · intro e hfail
    obtain rfl := Option.some.inj (hq.symm.trans hfail)
    exact ⟨s, w, hachieves, hfollows, hchanges⟩

/-! ### Alone -/

variable (W apply) in
/-- Begun on a shared state in a world, the program can end in others, when no other task runs. -/
inductive Ends : Async σ Cmd Err Resp α → σ → ω → α → σ → ω → Prop
  | done {a s w} : Ends (.done a) s w a s w
  | act {c next s w a s' w'} : Ends next (apply c s) w a s' w' → Ends (.act c next) s w a s' w'
  | read {next s w a s' w'} : Ends (next s) s w a s' w' → Ends (.read next) s w a s' w'
  | wait {req next s w answer w₁ w₂ a s' w'} : W.changes w w₁ → W.serves req w answer w₁ w₂ →
      Ends (next answer) s w₂ a s' w' → Ends (.wait req next) s w a s' w'

theorem Ends.bind {p : Async σ Cmd Err Resp α} {f : α → Async σ Cmd Err Resp β} {a : α} {b : β}
    {s s' s'' : σ} {w w' w'' : ω} (hp : Ends W apply p s w a s' w')
    (hf : Ends W apply (f a) s' w' b s'' w'') :
  Ends W apply (p >>= f) s w b s'' w''
  := by
  show Ends W apply (Async.bind p f) s w b s'' w''
  induction hp with
  | done => apply hf
  | act _ ih => apply Ends.act (ih hf)
  | read _ ih => apply Ends.read (ih hf)
  | wait hw hserves _ ih => apply Ends.wait hw hserves (ih hf)

theorem Ends.handle {p : Async σ Cmd Err Resp α} {f : Err → Async σ Cmd Err Resp α} {a : α}
    {s s' : σ} {w w' : ω} (hp : Ends W apply p s w a s' w') :
  Ends W apply (p.handle f) s w a s' w'
  := by
  induction hp with
  | done => exact .done
  | act _ ih => apply Ends.act ih
  | read _ ih => apply Ends.read ih
  | wait hw hserves _ ih => apply Ends.wait hw hserves ih

/-- What is asked for repeatedly is there at the first time. -/
theorem Ends.retry {ask : Async σ Cmd Err Resp (Option α)} {a : α} {s s' : σ} {w w' : ω}
    (hask : Ends W apply ask s w (some a) s' w') (pause : Async σ Cmd Err Resp Unit)
    (giveUp : Async σ Cmd Err Resp α) (attempts : ℕ) :
  Ends W apply (ask.retry pause giveUp (attempts + 1)) s w a s' w'
  := Ends.bind hask .done

/-- A request is answered. -/
theorem Ends.request {req : Req} {a : Resp req} {s : σ} {w w₁ w₂ : ω} (hw : W.changes w w₁)
    (hserves : W.serves req w (.ok a) w₁ w₂) :
  Ends W apply (Async.request req) s w a s w₂
  := .wait hw hserves .done

/-- A program that can end alone does so in a run of the event loop. -/
theorem Ends.runs {p : Async σ Cmd Err Resp Unit} {s s' : σ} {w w' : ω}
    (hp : Ends W apply p s w () s' w') (fallback : (req : Req) → Except Err (Resp req)) :
  ∃ j', ReflTransGen (Moves W apply)
      ((⟨.initial s, w, []⟩ : Joint σ Cmd Err ω Resp).spawn apply p) j' ∧
    j'.loop = ⟨s', [.done ()]⟩ ∧ j'.world = w'
  := by
  classical
  suffices h : ∃ j', ReflTransGen (Moves W apply)
      ⟨⟨(p.advance apply s).2.1, [(p.advance apply s).1]⟩, w, [w]⟩ j' ∧
      j'.loop = ⟨s', [.done ()]⟩ ∧ j'.world = w' from h
  generalize ha : () = a at hp
  induction hp with
  | done => exact ⟨_, .refl, rfl, rfl⟩
  | act _ ih => apply ih ha
  | read _ ih => apply ih ha
  | @wait req next s w answer w₁ w₂ a s' w' hw hserves _ ih =>
      obtain ⟨j', hruns, hend⟩ := ih ha
      let answers := Function.update fallback req answer
      have hanswer : answers req = answer := Function.update_self req answer fallback
      have hmoves : Moves W apply ⟨⟨s, [.wait req next]⟩, w₁, [w]⟩
          ⟨⟨((next answer).advance apply s).2.1, [((next answer).advance apply s).1]⟩, w₂, [w₂]⟩
          := by
        refine @Moves.answer _ _ _ _ _ _ W apply ⟨⟨s, [.wait req next]⟩, w₁, [w]⟩ 0 req next w _ w₂
          answers rfl rfl (hanswer.symm ▸ hserves) ?_
        rw [← hanswer]
        rfl
      exact ⟨j', .head (.change hw) (.head hmoves hruns), hend⟩

end Async
