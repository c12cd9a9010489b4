import InterchainEvents.Async.World
import InterchainEvents.Hub.Frame
import InterchainEvents.Hub.Rollback
import InterchainEvents.Watcher.Store
import InterchainEvents.Watcher.Tasks

/-!
# The watcher between two chains

The world of the watcher are the hub, on which transactions of anyone are committed at any time,
and a remote chain, which makes one block after the other. A node of the remote chain is honest,
and the hub executes what is submitted.
-/

namespace Watcher.Tasks

open Shared Async Hub

/-! ### The remote chain -/

/-- A remote chain: its state and the hash of the application after each height, and when the block
of each height is made, in milliseconds. -/
structure Remote where
  state : ℕ → Multistore
  appHash : ℕ → Binary
  madeAt : ℕ → ℕ

/-- Each block is made at most 18 seconds after the one before it. -/
def Remote.Steady (remote : Remote) : Prop :=
  ∀ height, remote.madeAt (height + 1) ≤ remote.madeAt height + 18000

/-! ### The chains -/

/-- What is committed on the hub, its block height, and the time. -/
structure Chains where
  hub : Storage
  hubHeight : ℕ
  time : ℕ

/-- Time passes, and anyone may have made transactions on the hub. -/
structure Chains.Changes (lib : Libraries) (w w' : Chains) : Prop where
  time_le : w.time ≤ w'.time
  hubHeight_le : w.hubHeight ≤ w'.hubHeight
  committed : ∃ txs : List Tx, w'.hub = ((contract lib).history txs w.hub).1 ∧
    ∀ tx ∈ txs, w.hubHeight ≤ tx.env.height ∧ tx.env.height ≤ w'.hubHeight

theorem Chains.Changes.refl (lib : Libraries) (w : Chains) :
  w.Changes lib w
  := ⟨Nat.le_refl _, Nat.le_refl _, [], rfl, by simp⟩

theorem Chains.Changes.trans {lib : Libraries} {w w' w'' : Chains} (h : w.Changes lib w')
    (h' : w'.Changes lib w'') :
  w.Changes lib w''
  := by
  obtain ⟨htime, hheight, txs, htxs, henv⟩ := h
  obtain ⟨htime', hheight', txs', htxs', henv'⟩ := h'
  refine ⟨htime.trans htime', hheight.trans hheight', txs ++ txs', ?_, ?_⟩
  · rw [(contract lib).history_append, htxs', htxs]
  · intro tx htx
    rcases List.mem_append.mp htx with htx | htx
    · exact ⟨(henv tx htx).1, (henv tx htx).2.trans hheight'⟩
    · exact ⟨hheight.trans (henv' tx htx).1, (henv' tx htx).2⟩

/-- One transaction on the hub. -/
theorem Chains.changes_transact (lib : Libraries) (w : Chains) {tx : Tx}
    (henv : tx.env.height = w.hubHeight) :
  w.Changes lib { w with hub := ((contract lib).transact tx w.hub).state }
  := ⟨Nat.le_refl _, Nat.le_refl _, [tx], rfl, by simp [henv]⟩

/-! ### Answers -/

/-- A subscription as it is listed. -/
def listedOf (sub : Subscription) : Listed :=
  ⟨wire sub, wireStatus sub.status⟩

/-- An integer of 64 bits. -/
def readU64 : Json.Doc → Option ℕ
  | .num l =>
      match SerdeJson.number (fun _ => none) l with
      | some (.posInt n) => some n
      | _ => none
  | _ => none

/-- The number that the contract reads in a value that is sent. Only numbers are sent as numbers. -/
def readId : Json.Doc → Option ℕ
  | .num l => (Json.parse (Js.numberText (Js.literal l))).bind readU64
  | _ => none

/-- The message of the hub contract that a submission is, if it can be read. -/
def messageOf (msg : SubmitMsg Json.Doc) : Option ExecuteMsg := do
  let subscriptionId ← readId msg.subscriptionId
  let revisionHeight ← msg.revisionHeight.bind Int.toNat?
  let appHash ← ofBase64 msg.appHash
  let proof ← ofBase64 msg.proof
  let key ← ofBase64 msg.key
  let value ← ofBase64 msg.value
  some (.submitProof subscriptionId ⟨msg.revisionNumber, revisionHeight⟩ appHash proof key
    value)

/-- The answers to requests. A query is answered from a state that was the latest one at some time
since it was asked for. A block is shown once it is made. Whoever is called back may do anything. -/
inductive Serves (lib : Libraries) (remote : Remote) :
    (req : Request) → (asked : Chains) → Except Failure (Response req) → Chains → Chains → Prop
  | connect {asked w} : Serves lib remote .connect asked (.ok ()) w w
  | list {startAfter limit asked w} :
      Serves lib remote (.listSubscriptions startAfter limit) asked
        (.ok (some ((queryListSubscriptions w.hub startAfter (some limit)).map listedOf))) w w
  | query {path data asked w node height} : remote.madeAt height ≤ w.time →
      asked.time < remote.madeAt (height + 1) →
      Honest lib node (remote.state height) height (remote.appHash height) →
      Serves lib remote (.abciQuery path data) asked (.ok (node.abciQuery path data)) w w
  | block {height text asked w} : remote.madeAt (height + 1) ≤ w.time → text ≠ "" →
      Hex.decode? text.toList = some (remote.appHash height) →
      Serves lib remote (.block (some (height + 1))) asked (.ok (some text)) w w
  | noBlock {height asked w} : asked.time < remote.madeAt height →
      Serves lib remote (.block (some height)) asked (.ok none) w w
  | noHeight {height asked w} : height.bind Int.toNat? = none →
      Serves lib remote (.block height) asked (.ok none) w w
  | sleep {ms asked w} : asked.time + ms ≤ w.time → Serves lib remote (.sleep ms) asked (.ok ()) w w
  | fromMnemonic {mnemonic asked w} :
      Serves lib remote (.fromMnemonic mnemonic) asked (.ok ()) w w
  | getAccounts {account accounts asked w} :
      Serves lib remote .getAccounts asked (.ok (account :: accounts)) w w
  | connectWithSigner {asked w} : Serves lib remote .connectWithSigner asked (.ok ()) w w
  | executed {sender msg message asked w callback text hash} : messageOf msg = some message →
      ((contract lib).transact (.message ⟨w.hubHeight⟩ ⟨⟨sender⟩, message⟩ callback text)
        w.hub).answer = .ok () →
      Serves lib remote (.execute sender msg) asked (.ok hash) w
        { w with hub := ((contract lib).transact (.message ⟨w.hubHeight⟩ ⟨⟨sender⟩, message⟩
          callback text) w.hub).state }
  | refused {sender msg message asked w callback text error failure} :
      messageOf msg = some message →
      ((contract lib).transact (.message ⟨w.hubHeight⟩ ⟨⟨sender⟩, message⟩ callback text)
        w.hub).answer = .error error →
      Serves lib remote (.execute sender msg) asked (.error failure) w
        { w with hub := ((contract lib).transact (.message ⟨w.hubHeight⟩ ⟨⟨sender⟩, message⟩
          callback text) w.hub).state }
  | unread {sender msg asked w failure} : messageOf msg = none →
      Serves lib remote (.execute sender msg) asked (.error failure) w w

theorem Serves.changes {lib : Libraries} {remote : Remote} {req : Request} {asked w w' : Chains}
    {answer : Except Failure (Response req)} (h : Serves lib remote req asked answer w w') :
  w.Changes lib w'
  := by
  cases h with
  | executed => apply Chains.changes_transact lib w rfl
  | refused => apply Chains.changes_transact lib w rfl
  | _ => apply Chains.Changes.refl

/-- The world of the watcher. -/
def world (lib : Libraries) (remote : Remote) : World Chains Failure Response where
  changes := Chains.Changes lib
  serves := Serves lib remote
  refl := Chains.Changes.refl lib
  trans := Chains.Changes.trans
  changes_of_serves := Serves.changes

/-! ### Subscriptions on the hub -/

section Hub

variable {lib : Libraries} {w w' : Chains}

theorem Chains.Changes.reachable (h : w.Changes lib w') :
  (contract lib).Reachable w.hub w'.hub
  := by
  obtain ⟨-, -, txs, htxs, -⟩ := h
  rw [htxs]
  apply (contract lib).reachable_history

theorem Chains.Changes.sound (h : w.Changes lib w') (hw : w.hub.Sound) :
  w'.hub.Sound
  := (extends_of_reachable hw h.reachable).1

/-- A settled subscription stays so. -/
theorem Chains.Changes.settled (h : w.Changes lib w') (hw : w.hub.Sound) {id : ℕ}
    (hid : w.hub.Settled id) :
  w'.hub.Settled id
  := by
  obtain ⟨sub, hload, hsub⟩ := hid
  exact ⟨sub, ((settledRule lib hsub).reachable ⟨hw, hload⟩ h.reachable).2, hsub⟩

/-- An active subscription stays as it is, or it is settled. -/
theorem Chains.Changes.load_or_settled (h : w.Changes lib w') (hw : w.hub.Sound) {id : ℕ}
    {sub : Subscription} (hload : w.hub.load id = some sub) (hactive : sub.status = .active) :
  w'.hub.load id = some sub ∨ w'.hub.Settled id
  := by
  obtain ⟨status, hload'⟩ := (extends_of_reachable hw h.reachable).2.2 id sub hload
  by_cases hstatus : status = .active
  · left
    rw [hload', hstatus, ← hactive]
  · right
    exact ⟨_, hload', hstatus⟩

/-- A proof that triggers a subscription settles it, whatever the callback does. -/
theorem settled_of_triggers {s : Storage} (hs : s.Sound) {env : Env} {info : MessageInfo} {id : ℕ}
    {height : Height} {appHash proof key value : Binary} {sub : Subscription}
    (hload : s.load id = some sub) (htriggers : Triggers lib env.height sub appHash proof key value)
    (callback : Platform.SubMsg Callback → Script) (text : Abort → String) :
  ((contract lib).transact (.message env
    ⟨info, .submitProof id height appHash proof key value⟩ callback text) s).state.Settled id
  := by
  have hexec := contract_execute_of_triggers info hload htriggers height
  have hsound := (soundRule lib).execute hs hexec
  have htriggered : ({ sub with status := .triggered } : Subscription).status ≠ .active := by simp
  cases hcalled : ((contract lib).run env (callback (callbackOf id height value sub))
      (s.save id { sub with status := .triggered })).answer with
  | ok _ =>
      obtain ⟨hanswer, hstate⟩ := Platform.Contract.send_of_callback_ok hexec hcalled
      rw [Platform.Contract.transact_message_of_ok hanswer, hstate]
      exact ⟨_, load_run_of_settled hsound (Storage.load_save_self _ _ _) htriggered _ _,
        htriggered⟩
  | error error =>
      have hreply := contract_reply lib env (s.save id { sub with status := .triggered }) id error
      rw [Storage.load_save_self] at hreply
      obtain ⟨hanswer, hstate⟩ := Platform.Contract.send_of_callback_error hexec hcalled hreply
      rw [Platform.Contract.transact_message_of_ok hanswer, hstate]
      exact ⟨_, Storage.load_save_self _ _ _, by simp⟩

end Hub

end Watcher.Tasks
