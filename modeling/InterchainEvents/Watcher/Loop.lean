import InterchainEvents.Platform.Machine

/-!
# The poll loop of the watcher

The watcher polls in a chain of timers: a timer that fires begins a poll, and the end of the poll
sets the next timer. Starting and stopping may come at any moment, also while a poll is in flight,
and the flag that says whether the watcher runs is shared by all of them.

As long as the watcher is not started again while a poll from before it was stopped is still in
flight, at most one chain is alive; otherwise there are two (`one_loop_iff`).
-/

namespace Watcher.Loop

open Machine

/-! ### The host -/

/-- A timer that has not fired: when it does, the tick of a loop with this interval runs. -/
structure Timer where
  handle : ℕ
  intervalMs : ℕ
  delay : ℕ

/-- The state shared by the functions of the watcher, together with what the host keeps for them:
the timers that have not fired, and the polls in flight, each with the interval of its loop. -/
structure State where
  running : Bool
  pollTimer : Option ℕ
  timers : List Timer
  nextHandle : ℕ
  polls : List ℕ

/-- Nothing has been started. -/
def State.initial : State := ⟨false, none, [], 0, []⟩

/-- `pollTimer = setTimeout(tick, delay)`, the tick being that of a loop with an interval. -/
def State.setTimer (s : State) (intervalMs delay : ℕ) : State :=
  { s with
    timers := s.timers ++ [⟨s.nextHandle, intervalMs, delay⟩]
    nextHandle := s.nextHandle + 1
    pollTimer := some s.nextHandle }

/-- `clearTimeout(handle)` -/
def State.clearTimeout (s : State) (handle : ℕ) : State :=
  { s with timers := s.timers.filter (·.handle ≠ handle) }

/-! ### The functions of the watcher -/

/-- Start the watcher, unless it runs. -/
def startWatcher (intervalMs : Option ℕ) (s : State) : State :=
  if s.running then s
  else
    -- Initial poll after 5s to let the server start
    { s with running := true }.setTimer (intervalMs.getD 30000) 5000

/-- Stop the watcher. -/
def stopWatcher (s : State) : State :=
  let s := { s with running := false }
  match s.pollTimer with
  | some handle => { s.clearTimeout handle with pollTimer := none }
  | none => s

/-- The tick of a loop, up to where it waits for its poll. -/
def tick (intervalMs : ℕ) (s : State) : State :=
  if s.running then { s with polls := s.polls ++ [intervalMs] } else s

/-- The tick of a loop, from the end of its poll on. -/
def tickAfterPoll (intervalMs : ℕ) (s : State) : State :=
  if s.running then s.setTimer intervalMs intervalMs else s

/-- What can happen: a call to start or to stop, a timer that fires, a poll that ends. -/
inductive Action where
  | start (intervalMs : Option ℕ)
  | stop
  | fire (handle : ℕ)
  | complete (poll : ℕ)

/-- What an action does. Only a timer that is set can fire, and only a poll in flight can end. -/
def step (s : State) : Action → Option State
  | .start intervalMs => some (startWatcher intervalMs s)
  | .stop => some (stopWatcher s)
  | .fire handle =>
      (s.timers.find? (·.handle = handle)).map fun t => tick t.intervalMs (s.clearTimeout handle)
  | .complete poll =>
      s.polls[poll]?.map fun intervalMs =>
        tickAfterPoll intervalMs { s with polls := s.polls.eraseIdx poll }

/-! ### Chains -/

/-- The number of chains that are alive: the timers that are set, and the polls in flight that will
set another one when they end. -/
def State.alive (s : State) : ℕ :=
  s.timers.length + if s.running then s.polls.length else 0

/-- An action begins a poll. -/
def Begins (s : State) (a : Action) : Prop :=
  ∃ s', step s a = some s' ∧ s.polls.length < s'.polls.length

/-- In a run there is never more than one chain, and after a stop no poll begins until the next
start. -/
def OneLoop (h : List (State × Action)) (s : State) : Prop :=
  (∀ x ∈ states h s, x.alive ≤ 1) ∧
    ∀ l x l', h = l ++ (x, .stop) :: l' → (∀ e ∈ l', ∀ intervalMs, e.2 ≠ .start intervalMs) →
      ∀ e ∈ l', ¬ Begins e.1 e.2

/-- The watcher is started while it does not run and a poll is still in flight. -/
def Overlaps (s : State) (a : Action) : Prop :=
  (∃ intervalMs, a = .start intervalMs) ∧ s.running = false ∧ s.polls ≠ []

instance (s : State) (a : Action) : Decidable (Overlaps s a) :=
  match a with
  | .start intervalMs =>
      decidable_of_iff (s.running = false ∧ s.polls ≠ [])
        ⟨fun h => ⟨⟨intervalMs, rfl⟩, h⟩, fun h => h.2⟩
  | .stop => isFalse fun h => by obtain ⟨⟨_, h⟩, -⟩ := h; cases h
  | .fire _ => isFalse fun h => by obtain ⟨⟨_, h⟩, -⟩ := h; cases h
  | .complete _ => isFalse fun h => by obtain ⟨⟨_, h⟩, -⟩ := h; cases h

/-! ### Without overlaps -/

/-- One chain while the watcher runs, of which the timer, if it is set, is the one the watcher
knows, and no timer while it does not run. -/
structure Single (s : State) : Prop where
  running : s.running = true →
    s.timers.length + s.polls.length = 1 ∧ ∀ t ∈ s.timers, s.pollTimer = some t.handle
  stopped : s.running = false → s.timers = []

theorem single_initial :
  Single .initial
  where
  running h := by contradiction
  stopped _ := rfl

theorem Single.alive_le {s : State} (hs : Single s) :
  s.alive ≤ 1
  := by
  unfold State.alive
  cases hrunning : s.running with
  | true =>
      have := (hs.running hrunning).1
      rw [if_pos rfl]
      omega
  | false => simp [hs.stopped hrunning]

/-- A timer set where there is neither a timer nor a poll is the one chain. -/
theorem single_setTimer {s : State} (htimers : s.timers = []) (hpolls : s.polls = [])
    (hrunning : s.running = true) (intervalMs delay : ℕ) :
  Single (s.setTimer intervalMs delay)
  where
  running _ := by simp [State.setTimer, htimers, hpolls]
  stopped h := by
    rw [State.setTimer, hrunning] at h
    contradiction

theorem Single.start {s : State} (hs : Single s) (intervalMs : Option ℕ)
    (h : s.running = false → s.polls = []) :
  Single (startWatcher intervalMs s)
  := by
  unfold startWatcher
  split_ifs with hrunning
  · apply hs
  · rw [Bool.not_eq_true] at hrunning
    apply single_setTimer
    · apply hs.stopped hrunning
    · apply h hrunning
    · rfl

/-- While the watcher runs, the timer it knows is the only one. -/
theorem Single.clearTimeout {s : State} (hs : Single s) {handle : ℕ}
    (h : s.running = true → s.pollTimer = some handle) :
  (s.clearTimeout handle).timers = []
  := by
  apply List.filter_eq_nil_iff.mpr
  intro t ht
  cases hrunning : s.running with
  | true =>
      have hknown := ((hs.running hrunning).2 t ht).symm.trans (h hrunning)
      simp [Option.some.inj hknown]
  | false =>
      rw [hs.stopped hrunning] at ht
      contradiction

theorem running_stopWatcher (s : State) :
  (stopWatcher s).running = false
  := by
  unfold stopWatcher
  dsimp only
  split <;> rfl

theorem Single.stop {s : State} (hs : Single s) :
  Single (stopWatcher s)
  where
  running h := by
    rw [running_stopWatcher] at h
    contradiction
  stopped _ := by
    unfold stopWatcher
    dsimp only
    cases htimer : s.pollTimer with
    | some handle => apply hs.clearTimeout fun _ => htimer
    | none =>
        cases hrunning : s.running with
        | true =>
            -- the watcher knows of no timer, so there is none
            apply List.eq_nil_iff_forall_not_mem.mpr
            intro t ht
            have := (hs.running hrunning).2 t ht
            rw [htimer] at this
            contradiction
        | false => apply hs.stopped hrunning

theorem Single.fire {s : State} (hs : Single s) {handle : ℕ} {t : Timer}
    (ht : s.timers.find? (·.handle = handle) = some t) :
  Single (tick t.intervalMs (s.clearTimeout handle))
  := by
  have hmem := List.mem_of_find?_eq_some ht
  have hhandle : t.handle = handle := by simpa using List.find?_some ht
  cases hrunning : s.running with
  | true =>
      obtain ⟨hone, hknown⟩ := hs.running hrunning
      have hpos := List.length_pos_of_mem hmem
      have hpolls : s.polls = [] := List.length_eq_zero_iff.mp (by omega)
      have htimers : (s.clearTimeout handle).timers = [] := by
        apply hs.clearTimeout
        intro _
        rw [hknown t hmem, hhandle]
      have hrunning' : (s.clearTimeout handle).running = true := hrunning
      rw [tick, if_pos hrunning']
      constructor
      · intro _
        constructor
        · show (s.clearTimeout handle).timers.length + (s.polls ++ [t.intervalMs]).length = 1
          rw [htimers, hpolls]
          rfl
        · intro t' ht'
          rw [htimers] at ht'
          contradiction
      · intro h
        exact absurd h (by simp [hrunning'])
  | false =>
      rw [hs.stopped hrunning] at hmem
      contradiction

theorem Single.complete {s : State} (hs : Single s) {poll intervalMs : ℕ}
    (hpoll : s.polls[poll]? = some intervalMs) :
  Single (tickAfterPoll intervalMs { s with polls := s.polls.eraseIdx poll })
  := by
  unfold tickAfterPoll
  dsimp only
  obtain ⟨hlt, -⟩ := List.getElem?_eq_some_iff.mp hpoll
  cases hrunning : s.running with
  | true =>
      have hone := (hs.running hrunning).1
      rw [if_pos rfl]
      apply single_setTimer
      · apply List.length_eq_zero_iff.mp
        show s.timers.length = 0
        omega
      · apply List.length_eq_zero_iff.mp
        show (s.polls.eraseIdx poll).length = 0
        rw [List.length_eraseIdx_of_lt hlt]
        omega
      · rfl
  | false =>
      rw [if_neg (by decide)]
      constructor
      · intro h
        contradiction
      · intro _
        apply hs.stopped hrunning

theorem Single.step {s s' : State} {a : Action} (hs : Single s) (ha : ¬ Overlaps s a)
    (h : step s a = some s') :
  Single s'
  := by
  cases a with
  | start intervalMs =>
      obtain rfl := Option.some.inj h
      apply hs.start intervalMs
      intro hrunning
      by_contra hpolls
      exact ha ⟨⟨intervalMs, rfl⟩, hrunning, hpolls⟩
  | stop =>
      obtain rfl := Option.some.inj h
      apply hs.stop
  | fire handle =>
      obtain ⟨t, ht, rfl⟩ := Option.map_eq_some_iff.mp h
      apply hs.fire ht
  | complete poll =>
      obtain ⟨intervalMs, hpoll, rfl⟩ := Option.map_eq_some_iff.mp h
      apply hs.complete hpoll

/-! ### After a stop -/

/-- Only a start makes the watcher run. -/
theorem step_stopped {s s' : State} {a : Action} (hs : s.running = false)
    (ha : ∀ intervalMs, a ≠ .start intervalMs) (h : step s a = some s') :
  s'.running = false ∧ s'.polls.length ≤ s.polls.length
  := by
  cases a with
  | start intervalMs => exact absurd rfl (ha intervalMs)
  | stop =>
      obtain rfl := Option.some.inj h
      use running_stopWatcher s
      unfold stopWatcher
      dsimp only
      split <;> apply Nat.le_refl
  | fire handle =>
      obtain ⟨t, -, rfl⟩ := Option.map_eq_some_iff.mp h
      have hs' : ¬ (s.clearTimeout handle).running = true := by
        show ¬ s.running = true
        simp [hs]
      rw [tick, if_neg hs']
      use hs
      apply Nat.le_refl
  | complete poll =>
      obtain ⟨intervalMs, -, rfl⟩ := Option.map_eq_some_iff.mp h
      unfold tickAfterPoll
      dsimp only
      rw [hs, if_neg (by decide)]
      use rfl
      apply List.length_eraseIdx_le

theorem not_begins_of_stopped {s : State} {a : Action} (hs : s.running = false)
    (ha : ∀ intervalMs, a ≠ .start intervalMs) :
  ¬ Begins s a
  := by
  rintro ⟨s', h, hlt⟩
  have := (step_stopped hs ha h).2
  omega

/-- After a stop no poll begins until the next start. -/
theorem not_begins_after_stop {s₀ s x : State} {l l' : List (State × Action)}
    (hrun : Run step s₀ (l ++ (x, .stop) :: l') s)
    (hl' : ∀ e ∈ l', ∀ intervalMs, e.2 ≠ .start intervalMs) :
  ∀ e ∈ l', ¬ Begins e.1 e.2
  := by
  have hcut : l ++ (x, .stop) :: l' = (l ++ [(x, .stop)]) ++ l' := by simp
  rw [hcut] at hrun
  obtain ⟨s₁, hstop, hrest⟩ := hrun.split
  have hs₁ : s₁.running = false := by
    obtain rfl := Option.some.inj hstop.last
    apply running_stopWatcher
  have hstopped := hrest.invariant (I := fun s => s.running = false)
    (G := fun _ a => ∀ intervalMs, a ≠ .start intervalMs) hs₁
    (fun hs ha h => (step_stopped hs ha h).1) hl'
  intro e he
  apply not_begins_of_stopped _ (hl' e he)
  apply hstopped e.1 (mem_states_of_mem he s)

/-! ### One loop at a time -/

/-- Where the watcher is started while a poll is in flight, two chains are alive. -/
theorem two_of_overlaps {s s' : State} {a : Action} (ha : Overlaps s a)
    (h : step s a = some s') :
  2 ≤ s'.alive
  := by
  obtain ⟨⟨intervalMs, rfl⟩, hrunning, hpolls⟩ := ha
  obtain rfl := Option.some.inj h
  have hpos := List.length_pos_of_ne_nil hpolls
  rw [startWatcher, if_neg (by simp [hrunning])]
  simp only [State.setTimer, State.alive, List.length_append, List.length_singleton, if_true]
  omega

/-- **One poll loop at a time.** In a run of starts, stops, timers that fire and polls that end, in
any order, there is never more than one chain of ticks, and no poll begins between a stop and the
next start, if and only if the watcher is never started while it is stopped and a poll is still in
flight. -/
theorem one_loop_iff {h : List (State × Action)} {s : State} (hrun : Run step .initial h s) :
  OneLoop h s ↔ ∀ e ∈ h, ¬ Overlaps e.1 e.2
  := by
  constructor
  · rintro ⟨halive, -⟩ e he hoverlaps
    obtain ⟨s', hs', hnext⟩ := hrun.next he
    have htwo := two_of_overlaps hoverlaps hnext
    have hone := halive s' hs'
    omega
  · intro hG
    constructor
    · intro x hx
      apply Single.alive_le
      apply hrun.invariant single_initial Single.step hG x hx
    · rintro l x l' rfl hl'
      apply not_begins_after_stop hrun hl'

/-- The watcher is stopped while its first poll is in flight, and started again before the poll has
ended: a timer is set then, and the poll will set another one. -/
theorem one_loop_restarted :
  ∃ h s, exec step .initial [.start none, .fire 0, .stop, .start none] = some (h, s) ∧
    Run step .initial h s ∧ s.alive = 2 ∧ ¬ OneLoop h s
  := by
  have hrun : Run step .initial _ _ := run_of_exec
    (l := [.start none, .fire 0, .stop, .start none]) rfl
  refine ⟨_, _, rfl, hrun, rfl, ?_⟩
  rintro ⟨halive, -⟩
  have := halive _ (mem_states_last _ _)
  contradiction

/-- Here it is started again after the poll has ended. -/
theorem one_loop_iff_sample :
  ∃ h s, exec step .initial [.start none, .fire 0, .stop, .complete 0, .start none] = some (h, s) ∧
    OneLoop h s
  := by
  have hrun : Run step .initial _ _ := run_of_exec
    (l := [.start none, .fire 0, .stop, .complete 0, .start none]) rfl
  refine ⟨_, _, rfl, (one_loop_iff hrun).mpr ?_⟩
  decide

end Watcher.Loop
