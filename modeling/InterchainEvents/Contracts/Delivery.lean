import InterchainEvents.Platform.Routed
import InterchainEvents.Hub.Frame
import InterchainEvents.ProofCallback.Payload

/-!
# The hub contract and the callback contract together

Both contracts are on one chain. A proof that the hub contract accepts leads to a message to the
callback contract of the subscription, in the same transaction, and everybody may call either
contract with other messages as well. `contract` is the two of them as one contract of the platform
with the storage of both, and `route` says that what the hub contract sends to the address of the
callback contract arrives there, from the address of the hub contract.

Every message arrives, and once: what the callback contract has recorded from the hub contract is
one event for each triggered subscription to it, in the order of the accepted proofs
(`delivered_once`).
-/

namespace Delivery

open Shared Platform Hub

/-! ### Both contracts -/

/-- What the two contracts store. -/
structure World where
  hub : Storage
  events : List ProofCallback.Event

/-- What they store after `instantiate`. -/
def World.initial : World := ⟨.initial, []⟩

/-- A call to one of them. -/
inductive Call where
  | hub (call : Hub.Call)
  | callback (info : MessageInfo) (msg : Binary)

/-- Why a call fails. -/
inductive Abort where
  | hub (e : Hub.Abort)
  | unreadable

/-- The two contracts as the platform sees them. -/
def contract (lib : Libraries) : Contract World Env Call Callback Abort where
  execute env call w :=
    match call with
    | .hub call =>
        let (answer, s) := (Hub.contract lib).execute env call w.hub
        (answer.mapError .hub, { w with hub := s })
    | .callback info msg =>
        match ProofCallback.ExecuteMsg.fromJson msg with
        | none => (.error .unreadable, w)
        | some msg =>
            (.ok none, { w with events := (ProofCallback.execute env info msg w.events).2 })
  reply env id error w :=
    let (answer, s) := (Hub.contract lib).reply env id error w.hub
    (answer.mapError .hub, { w with hub := s })

/-- A transaction that may call the contracts. -/
abbrev Tx : Type := Platform.Tx World Env Call Callback Abort

/-- What other contracts do that may call these. -/
abbrev Script : Type := Platform.Script World Call Callback Abort

/-- An entry into one of the contracts, and whether its writes were kept. -/
abbrev Record : Type := Platform.Record World Env Call Callback Abort

/-- What is committed by a sequence of transactions. -/
def committed (lib : Libraries) (txs : List Tx) : World :=
  ((contract lib).history txs .initial).1

/-- The entries made by a sequence of transactions, in order. -/
def log (lib : Libraries) (txs : List Tx) : List Record :=
  ((contract lib).history txs .initial).2

/-! ### Addresses -/

section Addresses

variable (hub callback : String)

/-- A message to the callback contract calls it in the name of the hub contract. -/
def route (text : Abort → String) (sub : SubMsg Callback) : Option Script :=
  if sub.payload.contractAddr = callback then
    some (.call (.callback ⟨hub⟩ sub.payload.msg) (fun _ => .succeed) fun
      | .ok _ => .succeed
      | .error e => .fail (text e))
  else none

/-- A call by somebody else: not in the name of the hub contract, and with integers of 64 bits. -/
def Sent : Call → Prop
  | .hub ⟨_, .submitProof _ height _ _ _ _⟩ =>
      height.revisionNumber < 2 ^ 64 ∧ height.revisionHeight < 2 ^ 64
  | .hub ⟨_, .subscribe ..⟩ => True
  | .callback info _ => info.sender ≠ hub

/-- The subscription whose message to the callback contract an entry sent, with its writes kept,
and the event that is to be recorded for it. -/
def dispatched (r : Record) : Option (ℕ × ProofCallback.Event) :=
  match r with
  | ⟨.execute env (.hub _) _ (.ok (some sub)), true⟩ =>
      if sub.payload.contractAddr = callback then some (sub.id, ⟨hub, env.height⟩) else none
  | _ => none

/-- The subscription is one to the callback contract, and was triggered. -/
def TriggeredFor (s : Storage) (id : ℕ) : Prop :=
  ∃ sub, s.load id = some sub ∧ sub.callbackContract = callback ∧ sub.status = .triggered

/-- The messages sent and what became of them agree. -/
structure Accounted (h : List Record) (w : World) : Prop where
  sound : w.hub.Sound
  small : w.hub.nextId < 2 ^ 64
  /-- What was recorded from the hub contract is what is to be recorded, in this order. -/
  events : w.events.filter (fun e => e.caller = hub)
    = (h.filterMap (dispatched hub callback)).map Prod.snd
  /-- No subscription sent two messages. -/
  nodup : ((h.filterMap (dispatched hub callback)).map Prod.fst).Nodup
  /-- Those that sent one are the triggered ones. -/
  mem_iff : ∀ id, id ∈ (h.filterMap (dispatched hub callback)).map Prod.fst
    ↔ TriggeredFor callback w.hub id
  /-- None has failed. -/
  status : ∀ id sub, w.hub.load id = some sub → sub.callbackContract = callback →
    sub.status = .active ∨ sub.status = .triggered

end Addresses

variable {lib : Libraries} {hub callback : String} {text : Abort → String}

/-! ### What the contracts do -/

theorem execute_hub (lib : Libraries) (env : Env) (call : Hub.Call) (w : World) :
  (contract lib).execute env (.hub call) w
    = (((Hub.contract lib).execute env call w.hub).1.mapError .hub,
        { w with hub := ((Hub.contract lib).execute env call w.hub).2 })
  := rfl

theorem reply_eq (lib : Libraries) (env : Env) (id : ℕ) (error : String) (w : World) :
  (contract lib).reply env id error w
    = (((Hub.contract lib).reply env id error w.hub).1.mapError .hub,
        { w with hub := ((Hub.contract lib).reply env id error w.hub).2 })
  := rfl

theorem hub_execute_of_ok {env : Env} {call : Hub.Call} {w w' : World}
    {r : Option (SubMsg Callback)} (h : (contract lib).execute env (.hub call) w = (.ok r, w')) :
  (Hub.contract lib).execute env call w.hub = (.ok r, w'.hub) ∧ w'.events = w.events
  := by
  rw [execute_hub] at h
  cases hexec : (Hub.contract lib).execute env call w.hub with
  | mk answer s =>
      rw [hexec] at h
      obtain ⟨hanswer, rfl⟩ := Prod.mk.inj h
      cases answer with
      | error e => cases hanswer
      | ok r' =>
          obtain rfl := Except.ok.inj hanswer
          exact ⟨rfl, rfl⟩

theorem execute_hub_ok {env : Env} {call : Hub.Call} {w w' : World}
    {r : Option (SubMsg Callback)} (h : (contract lib).execute env (.hub call) w = (.ok r, w')) :
  Succeeds lib env call w.hub r w'.hub ∧ w'.events = w.events
  := by
  obtain ⟨hexec, hevents⟩ := hub_execute_of_ok h
  exact ⟨contract_execute_ok hexec, hevents⟩

theorem execute_callback_ok {env : Env} {info : MessageInfo} {msg : Binary} {w w' : World}
    {r : Option (SubMsg Callback)}
    (h : (contract lib).execute env (.callback info msg) w = (.ok r, w')) :
  r = none ∧ w'.hub = w.hub ∧ w'.events = w.events ++ [⟨info.sender, env.height⟩]
  := by
  simp only [Delivery.contract] at h
  cases hmsg : ProofCallback.ExecuteMsg.fromJson msg with
  | none => simp [hmsg] at h
  | some m =>
      simp only [hmsg, Prod.mk.injEq, Except.ok.injEq] at h
      obtain ⟨rfl, rfl⟩ := h
      cases m
      exact ⟨rfl, rfl, rfl⟩

theorem execute_callback_of_read {env : Env} {info : MessageInfo} {msg : Binary} (w : World)
    {m : ProofCallback.ExecuteMsg} (hmsg : ProofCallback.ExecuteMsg.fromJson msg = some m) :
  (contract lib).execute env (.callback info msg) w
    = (.ok none, { w with events := w.events ++ [⟨info.sender, env.height⟩] })
  := by
  cases m
  simp only [Delivery.contract, hmsg]
  rfl

theorem reply_ok {env : Env} {id : ℕ} {error : String} {w w' : World}
    (h : (contract lib).reply env id error w = (.ok (), w')) :
  (Hub.contract lib).reply env id error w.hub = (.ok (), w'.hub) ∧ w'.events = w.events
  := by
  rw [reply_eq] at h
  cases hreply : (Hub.contract lib).reply env id error w.hub with
  | mk answer s =>
      rw [hreply] at h
      obtain ⟨hanswer, rfl⟩ := Prod.mk.inj h
      cases answer with
      | error e => cases hanswer
      | ok _ => exact ⟨rfl, rfl⟩

/-- What the entry points of the hub contract keep, those of both contracts keep. -/
theorem hubRule {I : Storage → Prop} (rule : (Hub.contract lib).InvariantRule I) :
  (contract lib).InvariantRule (fun w => I w.hub)
  where
  execute {w env message r w'} hw hexec := by
    cases message with
    | hub call => apply rule.execute hw (hub_execute_of_ok hexec).1
    | callback info msg =>
        rw [(execute_callback_ok hexec).2.1]
        apply hw
  reply {w env message sub w₁ error w₂} hw hexec hw₁ hreply := by
    cases message with
    | hub call => apply rule.reply hw (hub_execute_of_ok hexec).1 hw₁ (reply_ok hreply).1
    | callback info msg => cases (execute_callback_ok hexec).1

/-- The message goes to the callback contract of the subscription. -/
theorem callbackContract_of_succeeds {env : Env} {call : Hub.Call} {s s' : Storage}
    {sub : SubMsg Callback} (h : Succeeds lib env call s (some sub) s') {x : Subscription}
    (hload : s.load sub.id = some x) :
  x.callbackContract = sub.payload.contractAddr
  := by
  cases h with
  | triggered _ hload' =>
      obtain rfl := Storage.load_unique hload hload'
      rfl

/-! ### Sequences of transactions -/

theorem committed_append (lib : Libraries) (txs txs' : List Tx) :
  committed lib (txs ++ txs') = ((contract lib).history txs' (committed lib txs)).1
  := by
  rw [committed, (contract lib).history_append, committed]

theorem log_append (lib : Libraries) (txs txs' : List Tx) :
  log lib (txs ++ txs') = log lib txs ++ ((contract lib).history txs' (committed lib txs)).2
  := by
  rw [log, (contract lib).history_append, log, committed]

theorem sound_committed (lib : Libraries) (txs : List Tx) :
  (committed lib txs).hub.Sound
  := (hubRule (soundRule lib)).historyRule.history txs (h := []) Storage.sound_initial

/-- What was committed of a subscription is committed later on too, its status apart. -/
theorem extends_committed (lib : Libraries) (txs txs' : List Tx) :
  (committed lib txs).hub.Extends (committed lib (txs ++ txs')).hub
  := by
  rw [committed_append]
  exact ((hubRule (extendsRule lib _)).historyRule.history txs' (h := [])
    ⟨sound_committed lib txs, .refl _⟩).2

/-! ### Steps -/

/-- Entries that sent nothing to the callback contract do not count. -/
theorem dispatched_append {h l : List Record} (hl : ∀ r ∈ l, dispatched hub callback r = none) :
  (h ++ l).filterMap (dispatched hub callback) = h.filterMap (dispatched hub callback)
  := by
  rw [List.filterMap_append, List.filterMap_eq_nil_iff.mpr hl, List.append_nil]

theorem dispatched_unkept (e : Event World Env Call Callback Abort) :
  dispatched hub callback ⟨e, false⟩ = none
  := by
  unfold dispatched
  split
  · rename_i heq
    cases heq
  · rfl

/-- Entries that sent nothing to the callback contract, after which the same is stored. -/
theorem Accounted.append {h l : List Record} {w : World} (hw : Accounted hub callback h w)
    (hl : ∀ r ∈ l, dispatched hub callback r = none) :
  Accounted hub callback (h ++ l) w
  where
  sound := hw.sound
  small := hw.small
  events := by rw [dispatched_append hl, hw.events]
  nodup := by
    rw [dispatched_append hl]
    apply hw.nodup
  mem_iff id := by rw [dispatched_append hl, hw.mem_iff]
  status := hw.status

/-- A subscription is made. -/
theorem Accounted.created {h : List Record} {w : World} (hw : Accounted hub callback h w)
    {sub : Subscription} (hsub : WellFormed w.hub.nextId sub) (hactive : sub.status = .active)
    (hsmall : w.hub.nextId + 1 < 2 ^ 64) :
  Accounted hub callback h { w with hub := w.hub.create sub }
  where
  sound := hw.sound.create hsub
  small := hsmall
  events := hw.events
  nodup := hw.nodup
  mem_iff id := by
    rw [hw.mem_iff]
    simp only [TriggeredFor, Storage.load_create]
    by_cases hid : id = w.hub.nextId
    · have hnone : w.hub.load w.hub.nextId = none := hw.sound.load_nextId
      subst hid
      simp [hnone, hactive]
    · simp [hid]
  status id x hload hx := by
    dsimp only at hload
    rw [Storage.load_create] at hload
    split_ifs at hload
    · obtain rfl := Option.some.inj hload
      exact .inl hactive
    · apply hw.status id x hload hx

/-- A subscription to another contract has another status. -/
theorem Accounted.restated {h : List Record} {w : World} (hw : Accounted hub callback h w)
    {id : ℕ} {sub : Subscription} (hload : w.hub.load id = some sub)
    (hsub : sub.callbackContract ≠ callback) (status : SubscriptionStatus) :
  Accounted hub callback h { w with hub := w.hub.save id { sub with status := status } }
  where
  sound := by
    apply hw.sound.save (by simp [hload])
    apply (hw.sound.wellFormed hload).withStatus
  small := hw.small
  events := hw.events
  nodup := hw.nodup
  mem_iff k := by
    rw [hw.mem_iff]
    simp only [TriggeredFor, Storage.load_save]
    by_cases hk : k = id
    · subst hk
      simp [hload, hsub]
    · simp [hk]
  status k x hx hcallback := by
    dsimp only at hx
    rw [Storage.load_save] at hx
    split_ifs at hx
    · obtain rfl := Option.some.inj hx
      contradiction
    · apply hw.status k x hx hcallback

/-- An event is recorded from somebody else. -/
theorem Accounted.recorded {h : List Record} {w : World} (hw : Accounted hub callback h w)
    {e : ProofCallback.Event} (he : e.caller ≠ hub) :
  Accounted hub callback h { w with events := w.events ++ [e] }
  where
  sound := hw.sound
  small := hw.small
  events := by
    have hnil : [e].filter (fun e => decide (e.caller = hub)) = [] := by simp [he]
    rw [List.filter_append, hnil, List.append_nil, hw.events]
  nodup := hw.nodup
  mem_iff := hw.mem_iff
  status := hw.status

/-- A subscription to the callback contract is triggered, and the event recorded for it. -/
theorem Accounted.delivered {h l : List Record} {w : World} (hw : Accounted hub callback h w)
    {id height : ℕ} {sub : Subscription} (hload : w.hub.load id = some sub)
    (hactive : sub.status = .active) (hsub : sub.callbackContract = callback)
    (hl : l.filterMap (dispatched hub callback) = [(id, ⟨hub, height⟩)]) :
  Accounted hub callback (h ++ l)
    ⟨w.hub.save id { sub with status := .triggered }, w.events ++ [⟨hub, height⟩]⟩
  where
  sound := by
    apply hw.sound.save (by simp [hload])
    apply (hw.sound.wellFormed hload).withStatus
  small := hw.small
  events := by
    have hself : [(⟨hub, height⟩ : ProofCallback.Event)].filter (fun e => decide (e.caller = hub))
        = [⟨hub, height⟩] := by simp
    rw [List.filterMap_append, hl, List.filter_append, hself, hw.events]
    simp
  nodup := by
    rw [List.filterMap_append, hl, List.map_append, List.map_singleton]
    apply List.nodup_append.mpr
    refine ⟨hw.nodup, by simp, ?_⟩
    rintro k hk k' hk' rfl
    obtain rfl := List.mem_singleton.mp hk'
    -- it was active, so it had not sent a message
    obtain ⟨x, hx, -, htriggered⟩ := (hw.mem_iff _).mp hk
    obtain rfl := Storage.load_unique hload hx
    rw [hactive] at htriggered
    cases htriggered
  mem_iff k := by
    rw [List.filterMap_append, hl, List.map_append, List.mem_append, hw.mem_iff]
    simp only [TriggeredFor, Storage.load_save, List.map_singleton, List.mem_singleton]
    by_cases hk : k = id
    · subst hk
      simp [hsub]
    · simp [hk]
  status k x hx hcallback := by
    dsimp only at hx
    rw [Storage.load_save] at hx
    split_ifs at hx
    · obtain rfl := Option.some.inj hx
      exact .inr rfl
    · apply hw.status k x hx hcallback

/-! ### Runs -/

/-- What the hub contract sends to the callback contract is read and recorded. -/
theorem send_of_route {env : Env} {info : MessageInfo} {id : ℕ} {height : Height}
    {appHash proof key value : Binary} {sub : Subscription} {w w₁ : World}
    {text : Abort → String} (callbacks : SubMsg Callback → Script) (hid : id < 2 ^ 64)
    (hheight : height.revisionNumber < 2 ^ 64 ∧ height.revisionHeight < 2 ^ 64)
    (hexec : (contract lib).execute env
        (.hub ⟨info, .submitProof id height appHash proof key value⟩) w
      = (.ok (some (callbackOf id height value sub)), w₁))
    (hsub : sub.callbackContract = callback)
    (hcallbacks : ∀ script, route hub callback text (callbackOf id height value sub) = some script →
      callbacks (callbackOf id height value sub) = script) :
  let sent := (contract lib).send env
    (.hub ⟨info, .submitProof id height appHash proof key value⟩) callbacks w
  sent.answer = .ok () ∧
    sent.state = { w₁ with events := w₁.events ++ [⟨hub, env.height⟩] } ∧
    sent.log.filterMap (dispatched hub callback) = [(id, ⟨hub, env.height⟩)]
  := by
  have hroute : route hub callback text (callbackOf id height value sub)
      = some (.call (.callback ⟨hub⟩ (callbackOf id height value sub).payload.msg)
          (fun _ => .succeed) fun
            | .ok _ => .succeed
            | .error e => .fail (text e)) := by
    have haddr : (callbackOf id height value sub).payload.contractAddr = callback := hsub
    rw [route, if_pos haddr]
  have hread := @ProofCallback.fromJson_callbackOf id height sub hid hheight.1 hheight.2 value
  simp only [Contract.send, Contract.deliver, hexec, hcallbacks _ hroute, Contract.run,
    execute_callback_of_read w₁ hread, Outcome.commit, dispatched]
  simp [dispatched, callbackOf, hsub]

theorem accountedRule (lib : Libraries) (hub callback : String) (text : Abort → String) :
  (contract lib).RoutedRule (route hub callback text) (Sent hub) (Accounted hub callback)
  where
  discard {h l w w'} hw _ := by
    apply hw.append
    intro r hr
    obtain ⟨r', -, rfl⟩ := List.mem_map.mp hr
    apply dispatched_unkept
  refused {h w env message e w'} hw _ := by
    apply hw.append
    intro r hr
    obtain rfl := List.mem_singleton.mp hr
    apply dispatched_unkept
  executed {h w env message w'} hw hsent hexec := by
    obtain ⟨s', events'⟩ := w'
    cases message with
    | hub call =>
        obtain ⟨hok, rfl⟩ := execute_hub_ok hexec
        apply Accounted.append _ (by simp [dispatched])
        cases hok with
        | created _ hpath hkey hcallback hsmall =>
            apply hw.created ⟨rfl, hpath, hkey, hcallback⟩ rfl hsmall
    | callback info msg =>
        obtain ⟨-, rfl, rfl⟩ := execute_callback_ok hexec
        apply Accounted.append _ (by simp [dispatched])
        apply hw.recorded (e := ⟨info.sender, env.height⟩) hsent
  asked {h w env message sub w'} hw _ hexec hroute := by
    obtain ⟨s', events'⟩ := w'
    cases message with
    | hub call =>
        obtain ⟨hok, rfl⟩ := execute_hub_ok hexec
        have haddr : sub.payload.contractAddr ≠ callback := by
          intro h
          simp [route, h] at hroute
        apply Accounted.append _ (by simp [dispatched, haddr])
        cases hok with
        | triggered _ hload => apply hw.restated hload haddr
    | callback info msg => cases (execute_callback_ok hexec).1
  replied {h w env message sub w₁ l error w₂} hw _ hexec hroute hw₁ hreply := by
    obtain ⟨s₂, events₂⟩ := w₂
    apply Accounted.append _ (by simp [dispatched])
    obtain ⟨hreply, rfl⟩ := reply_ok hreply
    cases message with
    | hub call =>
        obtain ⟨hok, -⟩ := execute_hub_ok hexec
        have haddr : sub.payload.contractAddr ≠ callback := by
          intro h
          simp [route, h] at hroute
        obtain ⟨x, hload, hload₁, rfl⟩ := hok.replied hreply
        have hx : x.callbackContract = sub.payload.contractAddr :=
          callbackContract_of_succeeds hok hload
        exact hw₁.restated hload₁ (hx ▸ haddr) _
    | callback info msg => cases (execute_callback_ok hexec).1
  replyRefused {h w env message sub w₁ l error e w₂} _ _ hexec hroute hw₁ _ := by
    apply hw₁.append
    intro r hr
    obtain rfl := List.mem_singleton.mp hr
    apply dispatched_unkept
  routed {h w env message sub w₁ script callbacks} hw hsent hexec hroute hcallbacks := by
    obtain ⟨s₁, events₁⟩ := w₁
    cases message with
    | hub call =>
        obtain ⟨hok, rfl⟩ := execute_hub_ok hexec
        obtain ⟨info, msg⟩ := call
        cases hok with
        | @triggered id height appHash proof key value x hmsg hload htriggers =>
            obtain rfl : msg = _ := hmsg
            have hid : id < 2 ^ 64 := (hw.sound.lt_nextId hload).trans hw.small
            have hsub : x.callbackContract = callback := by
              by_contra h
              have haddr : (callbackOf id height value x).payload.contractAddr ≠ callback := h
              simp [route, haddr] at hroute
            obtain ⟨-, hstate, hlog⟩ := send_of_route callbacks hid hsent hexec hsub (by
                intro script' hroute'
                rw [hcallbacks]
                apply Option.some.inj (hroute.symm.trans hroute'))
            rw [hstate]
            apply hw.delivered hload htriggers.active hsub hlog
    | callback info msg => cases (execute_callback_ok hexec).1

theorem accounted_initial (hub callback : String) :
  Accounted hub callback [] .initial
  where
  sound := Storage.sound_initial
  small := by decide
  events := rfl
  nodup := .nil
  mem_iff id := by simp [TriggeredFor, World.initial]
  status id sub hload := by simp [World.initial] at hload

theorem accounted_committed (lib : Libraries) {txs : List Tx}
    (htxs : ∀ tx ∈ txs, tx.script.Routed (route hub callback text) (Sent hub)) :
  Accounted hub callback (log lib txs) (committed lib txs)
  := (accountedRule lib hub callback text).history htxs (accounted_initial hub callback)

/-- **Every message is delivered, and once.** Whatever transactions call the two contracts, as long
as nobody else calls in the name of the hub contract: the events that the callback contract has
recorded from it are those of the accepted proofs for subscriptions to it, in their order and with
the heights of their blocks; they are for different subscriptions, which are exactly those that have
been triggered; and no subscription to it is marked as failed or as expired. -/
theorem delivered_once (lib : Libraries) {hub callback : String} {text : Abort → String}
    {txs : List Tx} (htxs : ∀ tx ∈ txs, tx.script.Routed (route hub callback text) (Sent hub)) :
  let w := committed lib txs
  let sent := (log lib txs).filterMap (dispatched hub callback)
  w.events.filter (fun e => e.caller = hub) = sent.map Prod.snd ∧ (sent.map Prod.fst).Nodup ∧
    (∀ id, id ∈ sent.map Prod.fst ↔ TriggeredFor callback w.hub id) ∧
    ∀ id sub, w.hub.load id = some sub → sub.callbackContract = callback →
      sub.status = .active ∨ sub.status = .triggered
  := by
  have h := accounted_committed lib htxs
  exact ⟨h.events, h.nodup, h.mem_iff, h.status⟩

/-- A transaction of one message, what the hub contract sends in it being routed. -/
def routedTx (hub callback : String) (text : Abort → String) (env : Env) (call : Call) : Tx :=
  .message env call (fun sub => (route hub callback text sub).getD .succeed) text

theorem routed_routedTx (callback : String) (text : Abort → String) (env : Env) {call : Call}
    (hcall : Sent hub call) :
  (routedTx hub callback text env call).script.Routed (route hub callback text) (Sent hub)
  := by
  refine ⟨hcall, ?_, ?_, ?_⟩
  · intro sub script hroute
    dsimp only
    rw [hroute, Option.getD_some]
  · intro sub hroute
    dsimp only
    rw [hroute, Option.getD_none]
    trivial
  · rintro (_ | _) <;> trivial

/-- Such a transaction for two addresses. -/
def sampleTx (env : Env) (call : Call) : Tx :=
  routedTx "hub" "callback" (fun _ => "") env call

/-- A subscription, a message from somebody else to the callback contract, and an accepted
proof. -/
def sampleTxs : List Tx :=
  [sampleTx ⟨10⟩ (.hub sampleSubscribe),
    sampleTx ⟨15⟩ (.callback ⟨"mallory"⟩
      (callbackOf 7 ⟨2, 100⟩ [0x37] sampleSubscribed).payload.msg),
    sampleTx ⟨20⟩ (.hub ⟨⟨"bob"⟩, .submitProof 1 ⟨2, 100⟩ sampleAppHash sampleProof [1] [0x37]⟩)]

theorem delivered_once_sample :
  ((committed .sample sampleTxs).events.filter fun e => e.caller = "hub") = [⟨"hub", 20⟩] ∧
    TriggeredFor "callback" (committed .sample sampleTxs).hub 1
  := by
  have hrouted : ∀ tx ∈ sampleTxs,
      tx.script.Routed (route "hub" "callback" fun _ => "") (Sent "hub") := by
    intro tx htx
    simp only [sampleTxs, List.mem_cons, List.not_mem_nil, or_false] at htx
    rcases htx with rfl | rfl | rfl
    · apply routed_routedTx
      trivial
    · apply routed_routedTx
      simp [Sent]
    · apply routed_routedTx
      simp [Sent]
  obtain ⟨hevents, -, hmem, -⟩ := delivered_once .sample hrouted
  have hlog : (log .sample sampleTxs).filterMap (dispatched "hub" "callback")
      = [(1, ⟨"hub", 20⟩)] := by decide +kernel
  rw [hlog] at hevents hmem
  exact ⟨hevents, (hmem 1).mp (by simp)⟩

end Delivery
