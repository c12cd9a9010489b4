import InterchainEvents.Platform.Trace
import InterchainEvents.Hub.Invariant

/-!
# The outcome of a callback

An accepted proof commits, whatever the callback does, and the subscription ends as what the
callback's outcome says: triggered, with all the callback did, or failed with the callback's
error, with nothing the callback did (`callback_outcome`). The reply to a failed callback
always finds the subscription triggered and succeeds.
-/

namespace Hub

open Shared Platform

variable {lib : Libraries}

/-- The status of a subscription whose callback has answered. -/
def statusAfter (answer : Except String Unit) : SubscriptionStatus :=
  match answer with
  | .ok () => .triggered
  | .error error => .failed error

/-- If an entry is a reply, it found its subscription triggered, and it succeeded. -/
def FindsTriggered (r : Record) : Prop :=
  ∀ env id error before answer, r.event = .reply env id error before answer →
    (∃ sub, before.load id = some sub ∧ sub.status = .triggered) ∧ answer = .ok ()

/-- All replies so far found their subscriptions triggered. -/
def RepliesFindTriggered (h : List Record) (_ : Storage) : Prop :=
  ∀ r ∈ h, FindsTriggered r

theorem findsTriggered_execute (env : Env) (call : Call) (s : Storage)
    (answer : Except Abort (Option (SubMsg Callback))) (kept : Bool) :
  FindsTriggered ⟨.execute env call s answer, kept⟩
  := by
  intro env' id error before answer' he
  cases he

theorem repliesRule (lib : Libraries) :
  (contract lib).HistoryRule RepliesFindTriggered
  where
  discard _ hs' := (forall_mem_append_discard fun _ => .rfl).mpr hs'
  refused hs _ := forall_mem_concat hs (findsTriggered_execute _ _ _ _ _)
  executed hs _ := forall_mem_concat hs (findsTriggered_execute _ _ _ _ _)
  replied := by
    intro h s env message sub s₁ l error s₂ _ hexec hs₁ hreply
    obtain ⟨x, -, hload₁, -⟩ := (contract_execute_ok hexec).replied hreply
    apply forall_mem_concat hs₁
    intro env' id error' before answer he
    obtain ⟨rfl, rfl, rfl, rfl, rfl⟩ := Event.reply.inj he
    exact ⟨⟨_, hload₁, rfl⟩, rfl⟩
  replyRefused := by
    intro h s env message sub s₁ l error e s₂ _ hexec _ hreply
    exact absurd hreply (contract_execute_ok hexec).not_replyRefused

/-- What is stored of a settled subscription, a script leaves. -/
theorem load_run_of_settled {s : Storage} (hs : s.Sound) {id : ℕ} {sub : Subscription}
    (hload : s.load id = some sub) (hsub : sub.status ≠ .active) (env : Env) (script : Script) :
  ((contract lib).run env script s).state.load id = some sub
  := ((settledRule lib hsub).historyRule.run env script (h := []) ⟨hs, hload⟩).2

/-- **The outcome of a callback.** Let a proof for the subscription `i` be accepted in any
storage of any run. The call succeeds whatever the callback does, and a transaction that
makes it commits. If the callback succeeds, the storage is the one the callback left, and `i`
is triggered in it; if the callback fails, the storage is the one before the call, but that `i`
has failed with the callback's error. Every reply in the course of the call, and every reply
of any run, finds its subscription triggered and succeeds. -/
theorem callback_outcome {s s₁ : Storage} (hs : Reachable lib s) {env : Env} {info : MessageInfo}
    {i : ℕ} {height : Height} {appHash proof key value : Binary} {r : Option (SubMsg Callback)}
    (hexec : (contract lib).execute env ⟨info, .submitProof i height appHash proof key value⟩ s
      = (.ok r, s₁)) (callback : SubMsg Callback → Script) (text : Abort → String)
    (txs : List Tx) :
  ∃ sub, s.load i = some sub ∧ sub.status = .active ∧ r = some (callbackOf i height value sub) ∧
    let call : Call := ⟨info, .submitProof i height appHash proof key value⟩
    let called := (contract lib).run env (callback (callbackOf i height value sub)) s₁
    let sent := (contract lib).send env call callback s
    sent.answer = .ok () ∧
      ((contract lib).transact (.message env call callback text) s).state = sent.state ∧
      sent.state.load i = some { sub with status := statusAfter called.answer } ∧
      (sent.state = match called.answer with
        | .ok () => called.state
        | .error error => s.save i { sub with status := .failed error }) ∧
      (∀ r ∈ sent.log ++ log lib txs, FindsTriggered r)
  := by
  cases contract_execute_ok hexec with
  | created hmsg => cases hmsg
  | @triggered _ _ _ _ _ _ sub hmsg hload htriggers =>
      obtain ⟨rfl, rfl, rfl, rfl, rfl, rfl⟩ := ExecuteMsg.submitProof.inj hmsg
      refine ⟨sub, hload, htriggers.active, rfl, ?_⟩
      intro call called sent
      have hsent : sent.answer = .ok () ∧
          sent.state.load i = some { sub with status := statusAfter called.answer } ∧
          sent.state = match called.answer with
            | .ok () => called.state
            | .error error => s.save i { sub with status := .failed error } := by
        cases hcalled : called.answer with
        | ok _ =>
            obtain ⟨hanswer, hstate⟩ := Contract.send_of_callback_ok hexec hcalled
            have hsound := ((soundRule lib).execute (sound_of_reachable hs) hexec)
            refine ⟨hanswer, ?_, hstate⟩
            rw [hstate]
            apply load_run_of_settled hsound (Storage.load_save_self _ _ _)
            simp
        | error error =>
            have hreply := contract_reply lib env
              (s.save i { sub with status := .triggered }) i error
            rw [Storage.load_save_self] at hreply
            obtain ⟨hanswer, hstate⟩ := Contract.send_of_callback_error hexec hcalled hreply
            refine ⟨hanswer, ?_, ?_⟩
            · rw [hstate, Storage.load_save_self]
              rfl
            · rw [hstate, Storage.save_save]
      refine ⟨hsent.1, ?_, hsent.2.1, hsent.2.2, ?_⟩
      · apply Contract.transact_message_of_ok hsent.1
      · intro r hr
        rcases List.mem_append.mp hr with hr | hr
        · have hnil : RepliesFindTriggered [] s := by simp [RepliesFindTriggered]
          apply (repliesRule lib).send hnil r hr
        · have hnil : RepliesFindTriggered [] Storage.initial := by simp [RepliesFindTriggered]
          apply (repliesRule lib).history txs hnil r hr

/-- A callback that makes another subscription and then fails. -/
def failingCallback (_ : SubMsg Callback) : Script :=
  .call sampleSubscribe (fun _ => .succeed) (fun _ => .fail "no")

theorem callback_outcome_sample :
  ((contract .sample).send ⟨20⟩
      ⟨⟨"bob"⟩, .submitProof 1 ⟨2, 100⟩ sampleAppHash sampleProof [1] [0x37]⟩
      failingCallback (committed .sample [sampleSubscription])).state
    = (committed .sample [sampleSubscription]).save 1
        { sampleSubscribed with status := .failed "no" }
  := by
  have hload : (committed .sample [sampleSubscription]).load 1 = some sampleSubscribed := by decide
  have htriggers : Triggers .sample (⟨20⟩ : Env).height sampleSubscribed sampleAppHash sampleProof
    [1] [0x37] := sample_triggers
  have hexec := contract_execute_of_triggers ⟨"bob"⟩ hload htriggers ⟨2, 100⟩
  obtain ⟨sub, hsub, -, -, -, -, -, hstate, -⟩ :=
    callback_outcome (reachable_committed .sample [sampleSubscription])
      hexec
      failingCallback (fun _ => "") []
  obtain rfl := Storage.load_unique hload hsub
  rw [hstate]
  rfl

end Hub
