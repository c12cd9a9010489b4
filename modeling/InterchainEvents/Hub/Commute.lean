import InterchainEvents.Platform.Independent
import InterchainEvents.Hub.Rollback

/-!
# Submissions for different subscriptions

A proof submitted for a subscription reads and writes that subscription only, and so does the
reply to its callback. So proofs for different subscriptions that come in one block may come in
any order, as long as the outcome of each callback depends on its subscription only: the
subscriptions end up the same, and each proof gets the same answer (`submissions_commute`).
-/

namespace Hub

open Shared Platform

variable {lib : Libraries}

/-! ### Submissions -/

/-- A proof as it is submitted. -/
structure Submission where
  info : MessageInfo
  subscriptionId : ℕ
  height : Height
  appHash : Binary
  proof : Binary
  key : Binary
  value : Binary

/-- The call that submits a proof. -/
def Submission.call (m : Submission) : Call :=
  ⟨m.info, .submitProof m.subscriptionId m.height m.appHash m.proof m.key m.value⟩

/-- A callback that does not call the contract: all the contract sees of it is its outcome. -/
def scriptOf (outcome : Except String Unit) : Script :=
  match outcome with
  | .ok () => .succeed
  | .error error => .fail error

/-- Callbacks of which each ends as `outcome` says of its subscription. -/
def callbackBy (outcome : ℕ → Except String Unit) (sub : SubMsg Callback) : Script :=
  scriptOf (outcome sub.id)

/-- What comes of a submitted proof: the answer to the one who submitted it, the message to the
callback contract, and the status of the subscription. -/
structure Result where
  answer : Except Abort Unit
  callback : Option (SubMsg Callback)
  status : Option SubscriptionStatus

variable (lib) (h : ℕ) (outcome : ℕ → Except String Unit) (text : Abort → String)

/-- The transaction that submits a proof at block height `h`, where `outcome` is how the callback
of each subscription ends. -/
def Submission.tx (m : Submission) : Tx :=
  .message ⟨h⟩ m.call (callbackBy outcome) text

/-- What comes of a proof submitted at block height `h`. -/
def Submission.result (m : Submission) (s : Storage) : Result :=
  let sent := (contract lib).send ⟨h⟩ m.call (callbackBy outcome) s
  { answer := sent.answer
    callback := match ((contract lib).execute ⟨h⟩ m.call s).1 with
      | .ok asked => asked
      | .error _ => none
    status := (sent.state.load m.subscriptionId).map Subscription.status }

/-- The storage that the transaction of a submitted proof commits. -/
def Submission.commit (m : Submission) (s : Storage) : Storage :=
  ((contract lib).transact (m.tx h outcome text) s).state

variable {lib h outcome text}

/-! ### What a submission reads and writes -/

/-- The contract looks at the subscription a proof is submitted for, and at no other. -/
theorem Submission.execute_congr {m : Submission} {s s' : Storage}
    (hload : s.load m.subscriptionId = s'.load m.subscriptionId) (env : Env) :
  ((contract lib).execute env m.call s).1 = ((contract lib).execute env m.call s').1
  := by
  simp only [contract, Submission.call, execute]
  cases hs' : s'.load m.subscriptionId with
  | none =>
      rw [hs'] at hload
      unfold executeSubmitProof
      rw [runFrom_get_bind, runFrom_get_bind, hload, hs']
      rfl
  | some sub =>
      rw [hs'] at hload
      rw [executeSubmitProof_of_load lib env hload, executeSubmitProof_of_load lib env hs']
      split_ifs
      · rfl
      · rfl
      · rfl
      · cases verifyChainedMembership lib m.appHash m.proof sub.keyPath m.key m.value with
        | error e => rfl
        | ok _ =>
            dsimp only
            cases checkValue lib sub.condition m.value <;> rfl

theorem run_callbackBy (env : Env) (sub : SubMsg Callback) (s : Storage) :
  ((contract lib).run env (callbackBy outcome sub) s).answer = outcome sub.id ∧
    ((contract lib).run env (callbackBy outcome sub) s).state = s
  := by
  unfold callbackBy
  rcases outcome sub.id with error | ⟨⟩
  · exact ⟨rfl, rfl⟩
  · exact ⟨rfl, rfl⟩

variable (outcome) in
/-- A refused proof changes nothing. -/
theorem Submission.send_of_error {m : Submission} {s : Storage} {e : Abort}
    (hexec : ((contract lib).execute ⟨h⟩ m.call s).1 = .error e) :
  ((contract lib).send ⟨h⟩ m.call (callbackBy outcome) s).answer = .error e ∧
    ((contract lib).send ⟨h⟩ m.call (callbackBy outcome) s).state = s
  := by
  rcases hexec' : (contract lib).execute ⟨h⟩ m.call s with ⟨r, s'⟩
  rw [hexec'] at hexec
  obtain rfl : r = .error e := hexec
  simp [Contract.send, Contract.deliver, hexec']

variable (outcome) in
/-- An accepted proof gives the subscription the status that the outcome of its callback says, and
changes nothing else. -/
theorem Submission.send_of_ok {m : Submission} {s : Storage} {r : Option (SubMsg Callback)}
    (hexec : ((contract lib).execute ⟨h⟩ m.call s).1 = .ok r) :
  ∃ sub, s.load m.subscriptionId = some sub ∧
    ((contract lib).send ⟨h⟩ m.call (callbackBy outcome) s).answer = .ok () ∧
    ((contract lib).send ⟨h⟩ m.call (callbackBy outcome) s).state
      = s.save m.subscriptionId { sub with status := statusAfter (outcome m.subscriptionId) }
  := by
  rcases hexec' : (contract lib).execute ⟨h⟩ m.call s with ⟨r', s'⟩
  rw [hexec'] at hexec
  obtain rfl : r' = .ok r := hexec
  cases contract_execute_ok hexec' with
  | created hmsg => cases hmsg
  | @triggered _ _ _ _ _ _ sub hmsg hload htriggers =>
      obtain ⟨rfl, rfl, rfl, rfl, rfl, rfl⟩ := ExecuteMsg.submitProof.inj hmsg
      use sub, hload
      obtain ⟨hcalled, hleft⟩ := run_callbackBy ⟨h⟩
        (callbackOf m.subscriptionId m.height m.value sub)
        (s.save m.subscriptionId { sub with status := .triggered })
      cases houtcome : outcome m.subscriptionId with
      | ok _ =>
          obtain ⟨hanswer, hstate⟩ := Contract.send_of_callback_ok hexec'
            (hcalled.trans houtcome)
          use hanswer
          rw [hstate]
          apply hleft
      | error error =>
          have hreply := contract_reply lib ⟨h⟩
            (s.save m.subscriptionId { sub with status := .triggered }) m.subscriptionId error
          rw [Storage.load_save_self] at hreply
          obtain ⟨hanswer, hstate⟩ := Contract.send_of_callback_error hexec'
            (hcalled.trans houtcome) hreply
          use hanswer
          rw [hstate, Storage.save_save]
          rfl

variable (lib h outcome) in
/-- The subscription as an accepted proof leaves it. -/
def Submission.settled (m : Submission) (s : Storage) : Option Subscription :=
  match ((contract lib).execute ⟨h⟩ m.call s).1 with
  | .error _ => none
  | .ok _ =>
      (s.load m.subscriptionId).map fun sub =>
        { sub with status := statusAfter (outcome m.subscriptionId) }

theorem Submission.commit_eq (m : Submission) (s : Storage) :
  m.commit lib h outcome text s
    = match m.settled lib h outcome s with
      | none => s
      | some sub => s.save m.subscriptionId sub
  := by
  unfold Submission.commit Submission.tx Submission.settled
  cases hexec : ((contract lib).execute ⟨h⟩ m.call s).1 with
  | error e =>
      obtain ⟨hanswer, -⟩ := send_of_error outcome hexec
      apply Contract.transact_message_of_error hanswer
  | ok r =>
      obtain ⟨sub, hload, hanswer, hstate⟩ := send_of_ok outcome hexec
      rw [Contract.transact_message_of_ok hanswer, hstate, hload]
      rfl

theorem Submission.result_eq (m : Submission) (s : Storage) :
  m.result lib h outcome s
    = match ((contract lib).execute ⟨h⟩ m.call s).1 with
      | .error e => ⟨.error e, none, (s.load m.subscriptionId).map Subscription.status⟩
      | .ok asked => ⟨.ok (), asked, some (statusAfter (outcome m.subscriptionId))⟩
  := by
  unfold Submission.result
  cases hexec : ((contract lib).execute ⟨h⟩ m.call s).1 with
  | error e =>
      obtain ⟨hanswer, hstate⟩ := send_of_error outcome hexec
      simp only [hanswer, hstate]
  | ok asked =>
      obtain ⟨sub, hload, hanswer, hstate⟩ := send_of_ok outcome hexec
      simp only [hanswer, hstate, Storage.load_save_self, Option.map_some]

/-! ### Independence -/

theorem Submission.settled_congr {m : Submission} {s s' : Storage}
    (hload : s.load m.subscriptionId = s'.load m.subscriptionId) :
  m.settled lib h outcome s = m.settled lib h outcome s'
  := by
  unfold Submission.settled
  rw [Submission.execute_congr hload, hload]

theorem Submission.result_congr {m : Submission} {s s' : Storage}
    (hload : s.load m.subscriptionId = s'.load m.subscriptionId) :
  m.result lib h outcome s = m.result lib h outcome s'
  := by
  rw [result_eq, result_eq, Submission.execute_congr hload, hload]

/-- Other subscriptions than the one a proof is for stay as they are. -/
theorem Submission.load_commit_of_ne {m : Submission} {k : ℕ} (hk : k ≠ m.subscriptionId)
    (s : Storage) :
  (m.commit lib h outcome text s).load k = s.load k
  := by
  rw [commit_eq]
  cases m.settled lib h outcome s with
  | none => rfl
  | some sub => apply Storage.load_save_of_ne _ _ hk

/-- Subscriptions saved under different numbers may be saved in either order. -/
theorem Storage.save_comm (s : Storage) {i j : ℕ} (hij : i ≠ j) (sub sub' : Subscription) :
  (s.save i sub).save j sub' = (s.save j sub').save i sub
  := by
  unfold Storage.save
  congr 1
  apply Std.ExtTreeMap.ext_getElem?
  intro k
  simp only [Std.ExtTreeMap.getElem?_insert, Std.compare_eq_iff_eq]
  split_ifs with hj hi
  · exact absurd (hi.trans hj.symm) hij
  · rfl
  · rfl
  · rfl

/-- Proofs for different subscriptions are independent. -/
theorem Submission.independent {m m' : Submission} (hne : m.subscriptionId ≠ m'.subscriptionId) :
  Independent (Submission.commit lib h outcome text) (Submission.result lib h outcome) m m'
  where
  commute s := by
    have hsettled : m.settled lib h outcome (m'.commit lib h outcome text s)
        = m.settled lib h outcome s := settled_congr (load_commit_of_ne hne s)
    have hsettled' : m'.settled lib h outcome (m.commit lib h outcome text s)
        = m'.settled lib h outcome s := settled_congr (load_commit_of_ne hne.symm s)
    rw [commit_eq m, hsettled, commit_eq m' (m.commit lib h outcome text s), hsettled',
      commit_eq m', commit_eq m s]
    cases m.settled lib h outcome s with
    | none =>
        cases m'.settled lib h outcome s <;> rfl
    | some sub =>
        cases m'.settled lib h outcome s with
        | none => rfl
        | some sub' => apply Storage.save_comm _ hne.symm
  unseen s := result_congr (load_commit_of_ne hne s)
  unseen' s := result_congr (load_commit_of_ne hne.symm s)

/-! ### Whole lists -/

theorem history_eq_stepAll (ms : List Submission) (s : Storage) :
  ((contract lib).history (ms.map (Submission.tx h outcome text)) s).1
    = stepAll (Submission.commit lib h outcome text) ms s
  := by
  induction ms generalizing s with
  | nil => rfl
  | cons m ms ih => apply ih

theorem pairwise_independent {ms : List Submission}
    (hids : (ms.map Submission.subscriptionId).Nodup) :
  ms.Pairwise (Independent (Submission.commit lib h outcome text)
    (Submission.result lib h outcome))
  := by
  rw [List.Nodup, List.pairwise_map] at hids
  apply hids.imp Submission.independent

variable (lib h outcome text) in
/-- The proofs of a list, submitted in transactions one after another, each with what came of
it. -/
def results (ms : List Submission) (s : Storage) : List (Submission × Result) :=
  answers (Submission.commit lib h outcome text) (Submission.result lib h outcome) ms s

/-- **Submissions for different subscriptions commute.** From any storage, proofs for pairwise
different subscriptions that are submitted in one block may be submitted in any order. Let each
callback end as `outcome` says of its subscription, without calling the contract. Then the storage
in the end is the same, and every proof gets the same answer: it is refused with the same error, or
it is accepted with the same message to the callback contract and leaves its subscription with the
same status. -/
theorem submissions_commute (lib : Libraries) (s : Storage) (h : ℕ)
    (outcome : ℕ → Except String Unit) (text : Abort → String) {ms ms' : List Submission}
    (hperm : ms.Perm ms') (hids : (ms.map Submission.subscriptionId).Nodup) :
  ((contract lib).history (ms.map (Submission.tx h outcome text)) s).1
      = ((contract lib).history (ms'.map (Submission.tx h outcome text)) s).1 ∧
    (results lib h outcome text ms s).Perm (results lib h outcome text ms' s)
  := by
  have hind : ms.Pairwise (Independent (Submission.commit lib h outcome text)
      (Submission.result lib h outcome)) := pairwise_independent hids
  constructor
  · rw [history_eq_stepAll, history_eq_stepAll]
    apply stepAll_perm hperm hind
  · apply answers_perm hperm hind

/-- A proof for the sample subscription, and one for a subscription there is none of. -/
def samplePair : List Submission :=
  [⟨⟨"bob"⟩, 1, ⟨2, 100⟩, sampleAppHash, sampleProof, [1], [0x37]⟩,
    ⟨⟨"carol"⟩, 2, ⟨2, 100⟩, [], [], [1], []⟩]

theorem submissions_commute_sample :
  ((contract .sample).history (samplePair.map
      (Submission.tx 20 (fun _ => .error "no") (fun _ => ""))) (committed .sample
        [sampleSubscription])).1
    = ((contract .sample).history (samplePair.reverse.map
      (Submission.tx 20 (fun _ => .error "no") (fun _ => ""))) (committed .sample
        [sampleSubscription])).1
  := by
  have hids : (samplePair.map Submission.subscriptionId).Nodup := by decide
  apply (submissions_commute .sample _ 20 (fun _ => .error "no") (fun _ => "")
    samplePair.reverse_perm.symm hids).1

end Hub
