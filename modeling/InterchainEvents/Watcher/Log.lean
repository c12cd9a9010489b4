import InterchainEvents.Watcher.Tasks

/-!
# The log of the watcher

All tasks note events in one log, which keeps a bounded number of them. Here is what the log shows
of everything that was ever noted: in any run, in whatever order the tasks take turns, it is the
newest events, newest first, each with the time at which it was noted (`events_eq`).
-/

namespace Watcher.Tasks

open Shared Async

/-- All events noted, each with the time, given the time in the beginning. -/
def logged (clock : ℕ) : List (ℕ × Seen) → List WatcherEvent
  | [] => []
  | (_, .did (.addEvent event)) :: l => { event with timestamp := clock } :: logged clock l
  | (_, .did (.pass ms)) :: l => logged (clock + ms) l
  | _ :: l => logged clock l

/-- Whether a bounded list is cut before or after it grows makes no difference. -/
theorem take_append_take {α : Type} (n : ℕ) (l l' : List α) :
  (l ++ l'.take n).take n = (l ++ l').take n
  := by
  rw [List.take_append, List.take_append, List.take_take, Nat.min_eq_left (Nat.sub_le n _)]

/-- The events after one more. -/
theorem addEvent_events (event : Note) (state : State) :
  (addEvent event state).events
    = ({ event with timestamp := state.clock } :: state.events).take 100
  := by
  simp only [addEvent]
  split
  case isTrue => rfl
  case isFalse hshort => rw [List.take_of_length_le (Nat.le_of_not_gt hshort)]

/-- The commands add what they note to the log. -/
theorem replay_events (state : State) (l : List (ℕ × Seen)) (h : state.events.length ≤ 100) :
  (replay apply state l).events = ((logged state.clock l).reverse ++ state.events).take 100
  := by
  induction l generalizing state with
  | nil => exact (List.take_of_length_le h).symm
  | cons e l ih =>
      obtain ⟨task, o⟩ := e
      cases o with
      | did c =>
          cases c with
          | addEvent event =>
              have hevents := addEvent_events event state
              have hlength : (addEvent event state).events.length ≤ 100 := by
                rw [hevents]
                apply List.length_take_le
              rw [logged, List.reverse_cons, List.append_assoc, replay, apply, ih _ hlength,
                hevents, take_append_take]
              rfl
          | setSubscriptions subscriptions =>
              apply ih (apply (.setSubscriptions subscriptions) state) h
          | setLastCheck => apply ih (apply .setLastCheck state) h
          | setError error => apply ih (apply (.setError error) state) h
          | respond answer => apply ih state h
          | pass ms => apply ih (apply (.pass ms) state) h
      | saw s => apply ih state h
      | asked req => apply ih state h
      | got req answer => apply ih state h

/-- Time does not go back. -/
theorem replay_clock (state : State) (l : List (ℕ × Seen)) :
  (∀ e ∈ logged state.clock l,
    state.clock ≤ e.timestamp ∧ e.timestamp ≤ (replay apply state l).clock) ∧
    (logged state.clock l).Pairwise (fun e e' => e.timestamp ≤ e'.timestamp) ∧
    state.clock ≤ (replay apply state l).clock
  := by
  induction l generalizing state with
  | nil => exact ⟨by simp [logged], .nil, Nat.le_refl _⟩
  | cons e l ih =>
      obtain ⟨task, o⟩ := e
      cases o with
      | did c =>
          cases c with
          | addEvent event =>
              obtain ⟨hbetween, hsorted, hle⟩ := ih (addEvent event state)
              refine ⟨?_, ?_, hle⟩
              · intro e he
                rcases List.mem_cons.mp he with rfl | he
                · exact ⟨Nat.le_refl _, hle⟩
                · apply hbetween e he
              · exact hsorted.cons fun e he => (hbetween e he).1
          | setSubscriptions subscriptions =>
              apply ih (apply (.setSubscriptions subscriptions) state)
          | setLastCheck => apply ih (apply .setLastCheck state)
          | setError error => apply ih (apply (.setError error) state)
          | respond answer => apply ih state
          | pass ms =>
              obtain ⟨hbetween, hsorted, hle⟩ := ih { state with clock := state.clock + ms }
              refine ⟨?_, hsorted, (Nat.le_add_right _ _).trans hle⟩
              intro e he
              exact ⟨(Nat.le_add_right _ _).trans (hbetween e he).1, (hbetween e he).2⟩
      | saw s => apply ih state
      | asked req => apply ih state
      | got req answer => apply ih state

/-- In any run of the event loop the log is the newest 100 of all events that were noted, newest
first, and these have the times of their notes, in order and none in the future. -/
theorem events_eq [Host] {clock : ℕ} {tasks : List Task} {h : List (Loop × Happening)} {s : Loop}
    (hruns : Runs clock tasks h s) :
  s.state.events = ((logged clock (trace apply h)).reverse).take 100 ∧
    (logged clock (trace apply h)).Pairwise (fun e e' => e.timestamp ≤ e'.timestamp) ∧
    ∀ e ∈ logged clock (trace apply h), clock ≤ e.timestamp ∧ e.timestamp ≤ s.state.clock
  := by
  obtain ⟨hstate, -⟩ := replay_trace hruns.run
  obtain ⟨hbetween, hsorted, -⟩ := replay_clock (.initial clock) (trace apply h)
  have hevents := replay_events (.initial clock) (trace apply h) (Nat.zero_le _)
  rw [hstate] at hbetween hevents
  use by simpa [State.initial] using hevents, hsorted, hbetween

/-- A poll and a submission by hand for the same subscription, and some time. -/
def sampleTasks : List Task :=
  [.poll (some "secret"), .post (some "secret") (some (.obj [
    (Json.str "subscription_id", number 7), (Json.str "iavl_key_hex", .str (Json.str "01"))])),
    .clock 5]

/-- They take turns, and time passes between their notes. -/
def sampleTurns : List Happening :=
  (sampleTasks.map fun task => .spawn (@Task.program sampleHost task))
    ++ [0, 0, 1, 0, 1, 0, 1, 0, 1, 0, 1, 0, 1, 0].map fun task => .resume task sampleAnswer

theorem isSome_sampleTurns :
  (Machine.exec (step apply) (.initial (.initial 0)) sampleTurns).isSome = true
  := by
  decide +kernel

theorem events_eq_sample :
  ∃ h s, @Runs sampleHost 0 sampleTasks h s ∧
    s.state.events.map (fun e => (e.type, e.timestamp)) = [(.proofSubmitted, 5),
      (.proofSubmitted, 5), (.conditionMet, 5), (.conditionMet, 5), (.check, 5), (.check, 0)] ∧
    s.state.events = ((logged 0 (trace apply h)).reverse).take 100
  := by
  let _ : Host := sampleHost
  have hruns := runs_of_exec (Option.some_get isSome_sampleTurns).symm
    (show sampleTurns.filterMap Action.spawned = sampleTasks.map Task.program from rfl)
  exact ⟨_, _, hruns, by decide +kernel, (events_eq hruns).1⟩

end Watcher.Tasks
