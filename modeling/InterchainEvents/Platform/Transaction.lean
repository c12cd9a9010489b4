import Mathlib.Data.List.Basic
import Mathlib.Data.Nat.Notation

/-!
# Transactions of a contract that calls out and may be called back

A contract has two entry points over its storage, `execute` and `reply`. An `execute` that
succeeds may ask for one message to another contract, with a reply on error. What that other
contract does, as far as this one can see, is a `Script`: it reads the storage, calls the
contract again, runs parts whose failure it catches, and in the end succeeds or fails.

The rules of the platform are those of nested transactions:

* the writes of an entry point that returns an error are discarded;
* when the message an `execute` asked for fails, the writes made while it ran are discarded
  and `reply` runs on the storage the `execute` left;
* when `reply` fails, the whole call fails.

Every entry into the contract is logged, in the order of execution, and marked when its
writes are discarded. `HistoryRule` is the induction principle: what every entry preserves
holds of every history.
-/

namespace Platform

/-- A message to another contract, to be answered by `reply` with this identifier if it
fails. -/
structure SubMsg (Payload : Type) where
  id : ℕ
  payload : Payload

/-- The entry points of a contract. Both return the storage they leave, also with an
error. -/
structure Contract (σ Env Call Payload Err : Type) where
  execute : Env → Call → σ → Except Err (Option (SubMsg Payload)) × σ
  reply : Env → ℕ → String → σ → Except Err Unit × σ

/-- What the other contracts do, as far as the contract can see. -/
inductive Script (σ Call Payload Err : Type) where
  | succeed
  | fail (error : String)
  /-- Go on according to the storage of the contract. -/
  | query (next : σ → Script σ Call Payload Err)
  /-- Call the contract. A message it asks for is answered by `callback`, and the script goes
  on according to the answer. -/
  | call (message : Call) (callback : SubMsg Payload → Script σ Call Payload Err)
      (next : Except Err Unit → Script σ Call Payload Err)
  /-- Run a part and catch its failure. -/
  | attempt (body : Script σ Call Payload Err)
      (next : Except String Unit → Script σ Call Payload Err)

/-- An entry into the contract: the arguments, the storage found and the answer. -/
inductive Event (σ Env Call Payload Err : Type) where
  | execute (env : Env) (message : Call) (before : σ)
      (answer : Except Err (Option (SubMsg Payload)))
  | reply (env : Env) (id : ℕ) (error : String) (before : σ) (answer : Except Err Unit)

/-- An entry of the log, and whether its writes were kept. -/
structure Record (σ Env Call Payload Err : Type) where
  event : Event σ Env Call Payload Err
  kept : Bool

/-- The same entry, its writes being discarded. -/
def Record.discard {σ Env Call Payload Err : Type} (r : Record σ Env Call Payload Err) :
    Record σ Env Call Payload Err :=
  { r with kept := false }

/-- The answer of a call or of a script, the storage after it, and the entries made. -/
structure Outcome (σ Env Call Payload Err α : Type) where
  answer : Except α Unit
  state : σ
  log : List (Record σ Env Call Payload Err)

variable {σ Env Call Payload Err α : Type}

/-- An outcome begun at `s`, its writes being discarded if it failed. -/
def Outcome.commit (o : Outcome σ Env Call Payload Err α) (s : σ) :
    Outcome σ Env Call Payload Err α :=
  match o.answer with
  | .ok _ => o
  | .error _ => { o with state := s, log := o.log.map Record.discard }

namespace Contract

variable (c : Contract σ Env Call Payload Err)

/-- A whole call: `execute`, the message it asks for, and `reply` if that message fails. -/
def deliver (env : Env) (message : Call)
    (callback : SubMsg Payload → σ → Outcome σ Env Call Payload Err String) (s : σ) :
    Outcome σ Env Call Payload Err Err :=
  match c.execute env message s with
  | (.error e, _) => ⟨.error e, s, [⟨.execute env message s (.error e), false⟩]⟩
  | (.ok none, s₁) => ⟨.ok (), s₁, [⟨.execute env message s (.ok none), true⟩]⟩
  | (.ok (some sub), s₁) =>
      let executed : Record σ Env Call Payload Err :=
        ⟨.execute env message s (.ok (some sub)), true⟩
      let o := (callback sub s₁).commit s₁
      match o.answer with
      | .ok _ => ⟨.ok (), o.state, executed :: o.log⟩
      | .error error =>
          match c.reply env sub.id error o.state with
          | (.ok _, s₂) =>
              ⟨.ok (), s₂, executed :: o.log ++ [⟨.reply env sub.id error o.state (.ok ()), true⟩]⟩
          | (.error e, _) =>
              ⟨.error e, s, List.map Record.discard (executed :: o.log
                ++ [⟨.reply env sub.id error o.state (.error e), false⟩])⟩

/-- The run of a script from `s`. -/
def run (env : Env) : Script σ Call Payload Err → σ → Outcome σ Env Call Payload Err String
  | .succeed, s => ⟨.ok (), s, []⟩
  | .fail error, s => ⟨.error error, s, []⟩
  | .query next, s => run env (next s) s
  | .call message callback next, s =>
      let o := c.deliver env message (fun sub => run env (callback sub)) s
      let o' := run env (next o.answer) o.state
      { o' with log := o.log ++ o'.log }
  | .attempt body next, s =>
      let o := (run env body s).commit s
      let o' := run env (next o.answer) o.state
      { o' with log := o.log ++ o'.log }

/-- A message sent to the contract directly. -/
def send (env : Env) (message : Call) (callback : SubMsg Payload → Script σ Call Payload Err)
    (s : σ) : Outcome σ Env Call Payload Err Err :=
  c.deliver env message (fun sub => c.run env (callback sub)) s

section Callback

variable {c} {env : Env} {message : Call} {callback : SubMsg Payload → Script σ Call Payload Err}
  {s s₁ : σ} {sub : SubMsg Payload}

/-- A call that asks for no message leaves what `execute` left. -/
theorem send_of_no_callback (callback : SubMsg Payload → Script σ Call Payload Err)
    (hexec : c.execute env message s = (.ok none, s₁)) :
  (c.send env message callback s).answer = .ok () ∧ (c.send env message callback s).state = s₁
  := by
  simp [send, deliver, hexec]

/-- When the callback succeeds, what it did is kept. -/
theorem send_of_callback_ok (hexec : c.execute env message s = (.ok (some sub), s₁))
    (hok : (c.run env (callback sub) s₁).answer = .ok ()) :
  (c.send env message callback s).answer = .ok () ∧
    (c.send env message callback s).state = (c.run env (callback sub) s₁).state
  := by
  simp [send, deliver, hexec, Outcome.commit, hok]

/-- When the callback fails, `reply` runs on the storage that `execute` left. -/
theorem send_of_callback_error (hexec : c.execute env message s = (.ok (some sub), s₁))
    {error : String} (herror : (c.run env (callback sub) s₁).answer = .error error) {s₂ : σ}
    (hreply : c.reply env sub.id error s₁ = (.ok (), s₂)) :
  (c.send env message callback s).answer = .ok () ∧
    (c.send env message callback s).state = s₂
  := by
  simp [send, deliver, hexec, Outcome.commit, herror, hreply]

end Callback

end Contract

/-- A transaction: the environment of its block, and what it does. -/
structure Tx (σ Env Call Payload Err : Type) where
  env : Env
  script : Script σ Call Payload Err

/-- The transaction that sends one message to the contract. It fails, with some text, when the
contract refuses. -/
def Tx.message (env : Env) (message : Call)
    (callback : SubMsg Payload → Script σ Call Payload Err) (text : Err → String) :
    Tx σ Env Call Payload Err :=
  ⟨env, .call message callback fun
    | .ok _ => .succeed
    | .error e => .fail (text e)⟩

namespace Contract

variable (c : Contract σ Env Call Payload Err)

/-- A transaction from `s`, its writes being discarded if it fails. -/
def transact (tx : Tx σ Env Call Payload Err) (s : σ) :
    Outcome σ Env Call Payload Err String :=
  (c.run tx.env tx.script s).commit s

/-- The storage committed by a sequence of transactions, and all entries made. -/
def history : List (Tx σ Env Call Payload Err) → σ → σ × List (Record σ Env Call Payload Err)
  | [], s => (s, [])
  | tx :: txs, s =>
      let o := c.transact tx s
      let rest := history txs o.state
      (rest.1, o.log ++ rest.2)

/-! ### The induction principle -/

/-- `J h s` is kept by every way the history `h` and the storage `s` can go on: an entry
point that fails, one that succeeds, a `reply`, and the discarding of the writes made since
an earlier point. -/
structure HistoryRule (J : List (Record σ Env Call Payload Err) → σ → Prop) : Prop where
  discard : ∀ {h l s s'}, J h s → J (h ++ l) s' → J (h ++ l.map Record.discard) s
  refused : ∀ {h s env message e s'}, J h s → c.execute env message s = (.error e, s') →
    J (h ++ [⟨.execute env message s (.error e), false⟩]) s
  executed : ∀ {h s env message r s'}, J h s → c.execute env message s = (.ok r, s') →
    J (h ++ [⟨.execute env message s (.ok r), true⟩]) s'
  replied : ∀ {h s env message sub s₁ l error s₂}, J h s →
    c.execute env message s = (.ok (some sub), s₁) →
    J (h ++ ⟨.execute env message s (.ok (some sub)), true⟩ :: l) s₁ →
    c.reply env sub.id error s₁ = (.ok (), s₂) →
    J (h ++ ⟨.execute env message s (.ok (some sub)), true⟩ :: l
      ++ [⟨.reply env sub.id error s₁ (.ok ()), true⟩]) s₂
  replyRefused : ∀ {h s env message sub s₁ l error e s₂}, J h s →
    c.execute env message s = (.ok (some sub), s₁) →
    J (h ++ ⟨.execute env message s (.ok (some sub)), true⟩ :: l) s₁ →
    c.reply env sub.id error s₁ = (.error e, s₂) →
    J (h ++ ⟨.execute env message s (.ok (some sub)), true⟩ :: l
      ++ [⟨.reply env sub.id error s₁ (.error e), false⟩]) s₁

namespace HistoryRule

variable {c} {J : List (Record σ Env Call Payload Err) → σ → Prop}

theorem commit (rule : c.HistoryRule J) {h s} {o : Outcome σ Env Call Payload Err α}
    (hs : J h s) (ho : J (h ++ o.log) o.state) :
  J (h ++ (o.commit s).log) (o.commit s).state
  := by
  unfold Outcome.commit
  split
  · apply ho
  · apply rule.discard hs ho

/-- A call keeps what the run of the message it asks for keeps. -/
theorem deliver (rule : c.HistoryRule J) {env : Env} {message : Call}
    {callback : SubMsg Payload → σ → Outcome σ Env Call Payload Err String}
    (hcallback : ∀ sub {h s}, J h s → J (h ++ (callback sub s).log) (callback sub s).state)
    {h s} (hs : J h s) :
  J (h ++ (c.deliver env message callback s).log) (c.deliver env message callback s).state
  := by
  unfold Contract.deliver
  split
  case h_1 e s' hexec => apply rule.refused hs hexec
  case h_2 s₁ hexec => apply rule.executed hs hexec
  case h_3 sub s₁ hexec =>
      have hs₁ := rule.executed hs hexec
      have ho := rule.commit hs₁ (hcallback sub hs₁)
      rw [List.append_assoc] at ho
      dsimp only
      split
      case h_1 => apply ho
      case h_2 error herror =>
          -- the callback failed, so its commit left `s₁`
          have hstate : ((callback sub s₁).commit s₁).state = s₁ := by
            unfold Outcome.commit at herror ⊢
            split at herror
            · simp_all
            · simp_all
          rw [hstate] at ho ⊢
          split
          case h_1 s₂ hreply =>
              have := rule.replied hs hexec ho hreply
              rwa [List.append_assoc] at this
          case h_2 e s₂ hreply =>
              have := rule.replyRefused hs hexec ho hreply
              rw [List.append_assoc] at this
              apply rule.discard hs this

/-- What every entry keeps, a script keeps. -/
theorem run (rule : c.HistoryRule J) (env : Env) (script : Script σ Call Payload Err) :
  ∀ {h s}, J h s → J (h ++ (c.run env script s).log) (c.run env script s).state
  := by
  induction script with
  | succeed =>
      intro h s hs
      simpa [Contract.run] using hs
  | fail error =>
      intro h s hs
      simpa [Contract.run] using hs
  | query next ih =>
      intro h s hs
      apply ih s hs
  | call message callback next ihcallback ihnext =>
      intro h s hs
      simp only [Contract.run]
      rw [← List.append_assoc]
      apply ihnext
      apply rule.deliver (fun sub => ihcallback sub) hs
  | attempt body next ihbody ihnext =>
      intro h s hs
      simp only [Contract.run]
      rw [← List.append_assoc]
      apply ihnext
      apply rule.commit hs (ihbody hs)

/-- What every entry keeps, a message sent directly keeps. -/
theorem send (rule : c.HistoryRule J) {env : Env} {message : Call}
    {callback : SubMsg Payload → Script σ Call Payload Err} {h s} (hs : J h s) :
  J (h ++ (c.send env message callback s).log) (c.send env message callback s).state
  := rule.deliver (fun sub => rule.run env (callback sub)) hs

/-- What every entry keeps, a sequence of transactions keeps. -/
theorem history (rule : c.HistoryRule J) (txs : List (Tx σ Env Call Payload Err)) :
  ∀ {h s}, J h s → J (h ++ (c.history txs s).2) (c.history txs s).1
  := by
  induction txs with
  | nil =>
      intro h s hs
      simpa [Contract.history] using hs
  | cons tx txs ih =>
      intro h s hs
      simp only [Contract.history]
      rw [← List.append_assoc]
      apply ih
      apply rule.commit hs (rule.run tx.env tx.script hs)

end HistoryRule

/-! ### Sequences of transactions -/

theorem history_append (txs txs' : List (Tx σ Env Call Payload Err)) (s : σ) :
  c.history (txs ++ txs') s
    = ((c.history txs' (c.history txs s).1).1,
        (c.history txs s).2 ++ (c.history txs' (c.history txs s).1).2)
  := by
  induction txs generalizing s with
  | nil => rfl
  | cons tx txs ih => simp only [List.cons_append, history, ih, List.append_assoc]

section Message

variable {c} {env : Env} {message : Call} {callback : SubMsg Payload → Script σ Call Payload Err}
  {s : σ}

/-- A transaction of one message that is accepted commits what the message did. -/
theorem transact_message_of_ok (h : (c.send env message callback s).answer = .ok ())
    (text : Err → String) :
  (c.transact (.message env message callback text) s).state = (c.send env message callback s).state
  := by
  have h' : (c.deliver env message (fun sub => c.run env (callback sub)) s).answer = .ok () := h
  simp [transact, Tx.message, Outcome.commit, h', run, send]

theorem answer_transact_message_of_ok (h : (c.send env message callback s).answer = .ok ())
    (text : Err → String) :
  (c.transact (.message env message callback text) s).answer = .ok ()
  := by
  have h' : (c.deliver env message (fun sub => c.run env (callback sub)) s).answer = .ok () := h
  simp [transact, Tx.message, Outcome.commit, h', run]

/-- A transaction of one message that is refused commits nothing. -/
theorem transact_message_of_error {e : Err}
    (h : (c.send env message callback s).answer = .error e) (text : Err → String) :
  (c.transact (.message env message callback text) s).state = s
  := by
  have h' : (c.deliver env message (fun sub => c.run env (callback sub)) s).answer = .error e := h
  simp [transact, Tx.message, Outcome.commit, h', run]

end Message

/-! ### Invariants -/

/-- The storages that entry points lead to from `s₀`, however they are nested. -/
inductive Reachable (s₀ : σ) : σ → Prop
  | start : Reachable s₀ s₀
  | execute {s env message r s'} : Reachable s₀ s → c.execute env message s = (.ok r, s') →
      Reachable s₀ s'
  | reply {s env message sub s₁ error s₂} : Reachable s₀ s →
      c.execute env message s = (.ok (some sub), s₁) →
      c.reply env sub.id error s₁ = (.ok (), s₂) → Reachable s₀ s₂

/-- `I` is kept by the entry points. -/
structure InvariantRule (I : σ → Prop) : Prop where
  execute : ∀ {s env message r s'}, I s → c.execute env message s = (.ok r, s') → I s'
  reply : ∀ {s env message sub s₁ error s₂}, I s →
    c.execute env message s = (.ok (some sub), s₁) → I s₁ →
    c.reply env sub.id error s₁ = (.ok (), s₂) → I s₂

variable {c} in
/-- An invariant as a property of histories that does not look at the log. -/
theorem InvariantRule.historyRule {I : σ → Prop} (rule : c.InvariantRule I) :
  c.HistoryRule (fun _ s => I s)
  where
  discard hs _ := hs
  refused hs _ := hs
  executed hs hexec := rule.execute hs hexec
  replied hs hexec hs₁ hreply := rule.reply hs hexec hs₁ hreply
  replyRefused _ _ hs₁ _ := hs₁

variable {c} in
/-- An invariant holds of every reachable storage. -/
theorem InvariantRule.reachable {I : σ → Prop} (rule : c.InvariantRule I) {s₀ s : σ} (hs₀ : I s₀)
    (hs : c.Reachable s₀ s) :
  I s
  := by
  induction hs with
  | start => apply hs₀
  | execute _ hexec ih => apply rule.execute ih hexec
  | reply _ hexec hreply ih => apply rule.reply ih hexec (rule.execute ih hexec) hreply

theorem reachableRule (s₀ : σ) :
  c.InvariantRule (c.Reachable s₀)
  where
  execute hs hexec := .execute hs hexec
  reply hs hexec _ hreply := .reply hs hexec hreply

/-- Every committed storage is reachable. -/
theorem reachable_history (txs : List (Tx σ Env Call Payload Err)) (s : σ) :
  c.Reachable s (c.history txs s).1
  := (c.reachableRule s).historyRule.history txs (h := []) .start

end Contract

end Platform
