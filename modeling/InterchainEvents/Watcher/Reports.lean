import InterchainEvents.Watcher.Tasks

/-!
# What a poll reports and submits

The signals of a task are the events it notes, the proofs it submits and those that are accepted. A
poll gives one report for each subscription that was listed, in the order of the list, whatever
fails for one of them: it checks, and if it finds the condition met it submits a proof, once, and
tells how that went (`Report`). What it submits is what a node has shown for the key of that
subscription, with the condition holding of the value (`Submits`). All this holds in any run of the
event loop, at any time and with any other tasks going on (`poll_reports`).
-/

namespace Watcher.Tasks

open Shared Async

/-! ### Signals -/

/-- What a task tells others, an event, a proof submitted or the answer of the endpoint, and that a
proof is accepted. -/
inductive Signal where
  | note (subscriptionId : Json.Doc) (type : EventType)
  | submit (msg : SubmitMsg Json.Doc)
  | accept (msg : SubmitMsg Json.Doc) (transactionHash : String)
  | answer (answer : HttpAnswer)

/-- The signal in an observation, if it is one. -/
def signal : Seen → Option Signal
  | .did (.addEvent event) => some (.note event.subscriptionId event.type)
  | .did (.respond answer) => some (.answer answer)
  | .asked (.execute _ msg) => some (.submit msg)
  | .got (.execute _ msg) (.ok transactionHash) => some (.accept msg transactionHash)
  | _ => none

/-- The signals of a task. -/
def signals (l : List Seen) : List Signal :=
  l.filterMap signal

/-- The active subscriptions in the answer to a request for the list. -/
def listing : Seen → Option (List Listed)
  | .got (.listSubscriptions _ _) (.ok subscriptions) =>
      some ((subscriptions.getD []).filter fun s => s.status = .word "active")
  | _ => none

/-- The active subscriptions that a task was told. -/
def listed (l : List Seen) : Option (List Listed) :=
  l.findSome? listing

@[simp]
theorem signals_append (l l' : List Seen) :
  signals (l ++ l') = signals l ++ signals l'
  := List.filterMap_append

theorem listed_append (l l' : List Seen) :
  listed (l ++ l') = (listed l).or (listed l')
  := List.findSome?_append

/-- What was observed since `h` has these signals. -/
def Since (h h' : List Seen) (p : List Signal) : Prop :=
  ∃ l, h' = h ++ l ∧ signals l = p

theorem since_append (h l : List Seen) :
  Since h (h ++ l) (signals l)
  := ⟨l, rfl, rfl⟩

theorem since_refl (h : List Seen) :
  Since h h []
  := ⟨[], by simp, rfl⟩

theorem Since.trans {h h' h'' : List Seen} {p p' : List Signal} (hh' : Since h h' p)
    (hh'' : Since h' h'' p') :
  Since h h'' (p ++ p')
  := by
  obtain ⟨l, rfl, rfl⟩ := hh'
  obtain ⟨l', rfl, rfl⟩ := hh''
  exact ⟨l ++ l', by rw [List.append_assoc], signals_append l l'⟩

theorem Since.quiet {h h' h'' : List Seen} {p : List Signal} (hh' : Since h h' [])
    (hh'' : Since h' h'' p) :
  Since h h'' p
  := hh'.trans hh''

theorem Since.sublist {h h' : List Seen} {p : List Signal} (hh' : Since h h' p) :
  h.Sublist h'
  := by
  obtain ⟨l, rfl, -⟩ := hh'
  apply List.sublist_append_left

theorem Since.subset {h h' : List Seen} {p : List Signal} (hh' : Since h h' p) :
  h ⊆ h'
  := hh'.sublist.subset

/-- What was listed stays so. -/
theorem Since.listed {h h' : List Seen} {p : List Signal} (hh' : Since h h' p) {subs : List Listed}
    (hlisted : listed h = some subs) :
  listed h' = some subs
  := by
  obtain ⟨l, rfl, -⟩ := hh'
  rw [listed_append, hlisted, Option.some_or]

theorem Since.signals {h h' : List Seen} {p : List Signal} (hh' : Since h h' p)
    (hquiet : signals h = []) :
  signals h' = p
  := by
  obtain ⟨l, rfl, rfl⟩ := hh'
  rw [signals_append, hquiet, List.nil_append]

section Requests

variable {G : List Seen → Prop} {h : List Seen} {s : State}

/-- A request that is no signal is asked, and its answer got, which may be an error. -/
theorem upholds_quiet (hG : ∀ h', Since h h' [] → G h') {req : Request}
    (hreq : signal (.asked req) = none) (hanswer : ∀ answer, signal (.got req answer) = none) :
  Upholds apply G (fun a h' _ => Since h h' [] ∧ h' = h ++ [.asked req, .got req (.ok a)])
    (fun e h' _ => Since h h' [] ∧ .got req (.error e) ∈ h') (await req) h s
  := by
  have hasked : Since h (h ++ [.asked req]) [] := ⟨_, rfl, by simp [signals, hreq]⟩
  have hgot : ∀ answer, Since h (h ++ [.asked req, .got req answer]) [] := fun answer =>
    ⟨_, rfl, by simp [signals, hreq, hanswer]⟩
  apply upholds_request.mpr
  refine ⟨hG _ hasked, fun s' => ⟨fun a => ⟨hG _ (hgot _), hgot _, rfl⟩, fun e =>
    ⟨hG _ (hgot _), hgot _, by simp⟩⟩⟩

/-- An event is noted. -/
theorem upholds_perform {event : Note} {Q : Unit → List Seen → State → Prop}
    {E : Failure → List Seen → State → Prop}
    (hG : ∀ h', Since h h' [.note event.subscriptionId event.type] → G h')
    (hQ : ∀ h' s', Since h h' [.note event.subscriptionId event.type] → Q () h' s') :
  Upholds apply G Q E (perform (.addEvent event)) h s
  := ⟨hG _ (since_append _ _), hQ _ _ (since_append _ _)⟩

end Requests

/-! ### Submitting -/

/-- A node has shown the hash of the application after a height. -/
def ShowsHash (l : List Seen) (height : Option ℤ) (appHash : Binary) : Prop :=
  ∃ text, .got (.block (height.map (· + 1))) (.ok (some text)) ∈ l ∧ text ≠ "" ∧
    appHash = hexToBytes text.toList

/-- What is asked for before a proof for a height can be submitted. -/
inductive Prepares (height : Option ℤ) : Request → Prop
  | block : Prepares height (.block (height.map (· + 1)))
  | sleep {ms} : Prepares height (.sleep ms)
  | fromMnemonic {mnemonic} : Prepares height (.fromMnemonic mnemonic)
  | getAccounts : Prepares height .getAccounts
  | connectWithSigner : Prepares height .connectWithSigner

/-- The next block was shown without a hash. -/
def hashless (height : Option ℤ) : Seen → Bool
  | .got (.block next) (.ok text) => next = height.map (· + 1) && text.all (· = "")
  | _ => false

/-- Why no proof for a height could be submitted. -/
inductive SigningFails (l : List Seen) (height : Option ℤ) : Failure → Prop
  /-- A request has failed. -/
  | unanswered {req e} : Prepares height req → .got req (.error e) ∈ l → SigningFails l height e
  /-- Ten times the next block had no hash. -/
  | hashless : 10 ≤ l.countP (hashless height) → SigningFails l height (.ofMessage
      ("Failed to fetch app_hash for block " ++ heightText (height.map (· + 1))))
  /-- There is no account to sign with. -/
  | noAccount : .got .getAccounts (.ok []) ∈ l → SigningFails l height (undefinedProperty "address")

theorem ShowsHash.mono {l l' : List Seen} (hsub : l ⊆ l') {height : Option ℤ} {appHash : Binary}
    (h : ShowsHash l height appHash) :
  ShowsHash l' height appHash
  := by
  obtain ⟨text, hmem, hne, hhash⟩ := h
  exact ⟨text, hsub hmem, hne, hhash⟩

theorem SigningFails.mono {l l' : List Seen} (hsub : l.Sublist l') {height : Option ℤ} {e : Failure}
    (h : SigningFails l height e) :
  SigningFails l' height e
  := by
  cases h with
  | unanswered hreq hmem => apply SigningFails.unanswered hreq (hsub.subset hmem)
  | hashless hcount => apply SigningFails.hashless (hcount.trans hsub.countP_le)
  | noAccount hmem => apply SigningFails.noAccount (hsub.subset hmem)

section Submitting

variable {G : List Seen → Prop} {h : List Seen} {s : State}

/-- The hash that is fetched was shown, or a request has failed, or at each attempt the next block
had no hash. -/
theorem upholds_attemptAppHash (hG : ∀ h', Since h h' [] → G h') (height : Option ℤ)
    (attempts : ℕ) :
  Upholds apply G (fun appHash h' _ => Since h h' [] ∧ ShowsHash h' height appHash)
    (fun e h' _ => Since h h' [] ∧ ((∃ req, Prepares height req ∧ .got req (.error e) ∈ h') ∨
      h.countP (hashless height) + attempts ≤ h'.countP (hashless height) ∧
        e = .ofMessage
          ("Failed to fetch app_hash for block " ++ heightText (height.map (· + 1)))))
    (attemptAppHash height attempts) h s
  := by
  induction attempts generalizing h s with
  | zero => exact ⟨since_refl h, .inr ⟨Nat.le_refl _, rfl⟩⟩
  | succ attempts ih =>
      apply upholds_bind.mpr
      apply (upholds_quiet hG rfl fun _ => rfl).mono
      case hE => exact fun _ _ _ hh' => ⟨hh'.1, .inl ⟨_, .block, hh'.2⟩⟩
      rintro text h₁ s₁ ⟨hh₁, hgot⟩
      cases htext : text.filter (· ≠ "") with
      | some text' =>
          obtain ⟨rfl, hne⟩ := Option.filter_eq_some_iff.mp htext
          exact ⟨hh₁, text', by simp [hgot], by simpa using hne, rfl⟩
      | none =>
          -- the block is not there yet, and is asked for again after a while
          have hcount : h₁.countP (hashless height) = h.countP (hashless height) + 1 := by
            have hall : text.all (· = "") = true := by
              cases text <;> simp_all [Option.filter]
            simp [hgot, hashless, hall]
          apply upholds_bind.mpr
          apply (upholds_quiet (fun h' hh' => hG h' (hh₁.quiet hh')) rfl fun _ => rfl).mono
          case hE => exact fun _ _ _ hh' => ⟨hh₁.quiet hh'.1, .inl ⟨_, .sleep, hh'.2⟩⟩
          rintro _ h₂ s₂ ⟨hh₂, -⟩
          apply (ih fun h' hh' => hG h' (hh₁.quiet (hh₂.quiet hh'))).mono
          · rintro appHash h' s' ⟨hh', hhash⟩
            exact ⟨hh₁.quiet (hh₂.quiet hh'), hhash⟩
          · rintro e h' s' ⟨hh', hfailed⟩
            refine ⟨hh₁.quiet (hh₂.quiet hh'), hfailed.imp_right ?_⟩
            rintro ⟨hle, he⟩
            have hgrows := hh₂.sublist.countP_le (p := hashless height)
            exact ⟨by omega, he⟩

/-- How far a submission is: its message carries a hash that was shown. -/
inductive Submission (h h' : List Seen) (id : Json.Doc) (proof : StateProof) : List Signal → Prop
  | pending : Since h h' [] → Submission h h' id proof []
  | asked {appHash} : ShowsHash h' proof.height appHash →
      Since h h' [.submit (submitMsg id proof appHash)] →
      Submission h h' id proof [.submit (submitMsg id proof appHash)]
  | got {appHash hash} : ShowsHash h' proof.height appHash →
      Since h h' [.submit (submitMsg id proof appHash), .accept (submitMsg id proof appHash) hash] →
      Submission h h' id proof
        [.submit (submitMsg id proof appHash), .accept (submitMsg id proof appHash) hash]
  | noted {appHash hash} : ShowsHash h' proof.height appHash →
      Since h h' [.submit (submitMsg id proof appHash), .accept (submitMsg id proof appHash) hash,
        .note id .proofSubmitted] →
      Submission h h' id proof [.submit (submitMsg id proof appHash),
        .accept (submitMsg id proof appHash) hash, .note id .proofSubmitted]

/-- A submission sends one message, which carries the proof and a hash that was shown. -/
theorem upholds_signAndSubmit {id : Json.Doc} {proof : StateProof}
    (hG : ∀ h' p, Submission h h' id proof p → G h') (mnemonic : String) :
  Upholds apply G
    (fun hash h' _ => ∃ appHash, ShowsHash h' proof.height appHash ∧
      Since h h' [.submit (submitMsg id proof appHash), .accept (submitMsg id proof appHash) hash,
        .note id .proofSubmitted])
    (fun e h' _ => Since h h' [] ∧ SigningFails h' proof.height e ∨
      ∃ appHash, (ShowsHash h' proof.height appHash ∧
        Since h h' [.submit (submitMsg id proof appHash)]) ∧
        ∃ sender, .got (.execute sender (submitMsg id proof appHash)) (.error e) ∈ h')
    (signAndSubmit mnemonic id proof) h s
  := by
  have hquiet : ∀ h', Since h h' [] → G h' := fun h' hh' => hG h' [] (.pending hh')
  apply upholds_bind.mpr
  apply (upholds_attemptAppHash hquiet proof.height 10).mono
  case hE =>
      rintro e h' s' ⟨hh', ⟨req, hreq, hmem⟩ | ⟨hcount, rfl⟩⟩
      · exact .inl ⟨hh', .unanswered hreq hmem⟩
      · exact .inl ⟨hh', .hashless ((Nat.le_add_left 10 _).trans hcount)⟩
  rintro appHash h₁ s₁ ⟨hh₁, hhash⟩
  -- three requests that are no signals
  apply upholds_bind.mpr
  apply (upholds_quiet (fun h' hh' => hquiet h' (hh₁.quiet hh')) rfl fun _ => rfl).mono
  case hE => exact fun _ _ _ hh' => .inl ⟨hh₁.quiet hh'.1, .unanswered .fromMnemonic hh'.2⟩
  rintro _ h₂ s₂ ⟨hh₂, -⟩
  apply upholds_bind.mpr
  apply (upholds_quiet (fun h' hh' => hquiet h' (hh₁.quiet (hh₂.quiet hh'))) rfl fun _ => rfl).mono
  case hE =>
      exact fun _ _ _ hh' => .inl ⟨hh₁.quiet (hh₂.quiet hh'.1), .unanswered .getAccounts hh'.2⟩
  rintro accounts h₃ s₃ ⟨hh₃, haccounts⟩
  apply upholds_bind.mpr
  apply (upholds_quiet (fun h' hh' => hquiet h' (hh₁.quiet (hh₂.quiet (hh₃.quiet hh')))) rfl
    fun _ => rfl).mono
  case hE =>
      exact fun _ _ _ hh' => .inl ⟨hh₁.quiet (hh₂.quiet (hh₃.quiet hh'.1)),
        .unanswered .connectWithSigner hh'.2⟩
  rintro _ h₄ s₄ ⟨hh₄, -⟩
  have hready : Since h₁ h₄ [] := hh₂.quiet (hh₃.quiet hh₄)
  apply upholds_bind.mpr
  apply upholds_fromExcept.mpr
  refine ⟨fun address _ => ?_, fun e he => .inl ⟨hh₁.quiet hready, ?_⟩⟩
  case refine_2 =>
      -- there is no account
      cases accounts with
      | cons account accounts => contradiction
      | nil =>
          obtain rfl := Except.error.inj he
          exact .noAccount (hh₄.subset (by simp [haccounts]))
  -- the message is sent, with the hash that was shown
  have hcarried : ∀ {h' p}, Since h₄ h' p → ShowsHash h' proof.height appHash ∧ Since h h' p :=
    fun hh' => ⟨hhash.mono (hready.quiet hh').subset, hh₁.quiet (hready.quiet hh')⟩
  apply upholds_bind.mpr
  apply upholds_request.mpr
  have hasked := since_append h₄ [.asked (.execute address (submitMsg id proof appHash))]
  refine ⟨hG _ _ (.asked (hcarried hasked).1 (hcarried hasked).2), fun s₅ =>
    ⟨fun transactionHash => ?_, fun e => ?_⟩⟩
  · have hgot := since_append h₄ [.asked (.execute address (submitMsg id proof appHash)),
      .got (.execute address (submitMsg id proof appHash)) (.ok transactionHash)]
    have hnoted := hgot.trans (since_append _ [.did (.addEvent ⟨id, .proofSubmitted,
      Json.str ("Proof submitted! TX: " ++ transactionHash), some transactionHash⟩)])
    exact ⟨hG _ _ (.got (hcarried hgot).1 (hcarried hgot).2),
      hG _ _ (.noted (hcarried hnoted).1 (hcarried hnoted).2), appHash, hcarried hnoted⟩
  · have hgot := since_append h₄ [.asked (.execute address (submitMsg id proof appHash)),
      .got (.execute address (submitMsg id proof appHash)) (.error e)]
    exact ⟨hG _ _ (.asked (hcarried hgot).1 (hcarried hgot).2), .inr ⟨appHash, hcarried hgot,
      address, by simp⟩⟩

end Submitting

section

variable [host : Host]

/-! ### Fetching -/

/-- A node has shown a proof for a key. -/
def Shows (l : List Seen) (iavlKeyHex : String) (proof : StateProof) : Prop :=
  ∃ result, .got (.abciQuery "store/wasm/key" ("0x" ++ iavlKeyHex)) (.ok result) ∈ l ∧
    readAnswer result = .ok (some proof)

/-- Why the value under a key could not be fetched. -/
inductive FetchFails (l : List Seen) (iavlKeyHex : String) : Failure → Prop
  | unanswered {e} : .got (.abciQuery "store/wasm/key" ("0x" ++ iavlKeyHex)) (.error e) ∈ l →
      FetchFails l iavlKeyHex e
  | unreadable {result e} :
      .got (.abciQuery "store/wasm/key" ("0x" ++ iavlKeyHex)) (.ok result) ∈ l →
      readAnswer result = .error e → FetchFails l iavlKeyHex e

/-- A node has shown no value for a key. -/
def ShowsNone (l : List Seen) (iavlKeyHex : String) : Prop :=
  ∃ result, .got (.abciQuery "store/wasm/key" ("0x" ++ iavlKeyHex)) (.ok result) ∈ l ∧
    readAnswer result = .ok none

/-- The message carries what a node has shown for a key. -/
def Carries (l : List Seen) (iavlKeyHex : String) (subscriptionId : Json.Doc)
    (proof : StateProof) (msg : SubmitMsg Json.Doc) : Prop :=
  Shows l iavlKeyHex proof ∧
    ∃ appHash, ShowsHash l proof.height appHash ∧ msg = submitMsg subscriptionId proof appHash

/-- The message carries what a node has shown for the key of the subscription, and the condition
holds of the value. -/
def Submits (l : List Seen) (sub : WireSubscription) (msg : SubmitMsg Json.Doc) :
    Prop :=
  ∃ watchKey proof, fromBase64 sub.watchKey = some watchKey ∧
    checkCondition sub.condition proof.value = true ∧
    Carries l (String.ofList (bytesToHex watchKey)) (number sub.id) proof msg

theorem Shows.mono {l l' : List Seen} (hsub : l ⊆ l') {iavlKeyHex : String} {proof : StateProof}
    (h : Shows l iavlKeyHex proof) :
  Shows l' iavlKeyHex proof
  := by
  obtain ⟨result, hmem, hread⟩ := h
  exact ⟨result, hsub hmem, hread⟩

theorem FetchFails.mono {l l' : List Seen} (hsub : l ⊆ l') {iavlKeyHex : String} {e : Failure}
    (h : FetchFails l iavlKeyHex e) :
  FetchFails l' iavlKeyHex e
  := by
  cases h with
  | unanswered hmem => apply FetchFails.unanswered (hsub hmem)
  | unreadable hmem hread => apply FetchFails.unreadable (hsub hmem) hread

theorem ShowsNone.mono {l l' : List Seen} (hsub : l ⊆ l') {iavlKeyHex : String}
    (h : ShowsNone l iavlKeyHex) :
  ShowsNone l' iavlKeyHex
  := by
  obtain ⟨result, hmem, hread⟩ := h
  exact ⟨result, hsub hmem, hread⟩

theorem Carries.mono {l l' : List Seen} (hsub : l ⊆ l') {iavlKeyHex : String} {id : Json.Doc}
    {proof : StateProof} {msg : SubmitMsg Json.Doc} (h : Carries l iavlKeyHex id proof msg) :
  Carries l' iavlKeyHex id proof msg
  := by
  obtain ⟨hshows, appHash, hhash, hmsg⟩ := h
  exact ⟨hshows.mono hsub, appHash, hhash.mono hsub, hmsg⟩

theorem Submits.mono {l l' : List Seen} (hsub : l ⊆ l') {sub : WireSubscription}
    {msg : SubmitMsg Json.Doc}
    (h : Submits l sub msg) :
  Submits l' sub msg
  := by
  obtain ⟨watchKey, proof, hkey, hmet, hcarries⟩ := h
  exact ⟨watchKey, proof, hkey, hmet, hcarries.mono hsub⟩

/-- The proof that is fetched was shown, or that there is no value, or the request has failed. -/
theorem upholds_fetchStateWithProof {G : List Seen → Prop} {h : List Seen} {s : State}
    (hG : ∀ h', Since h h' [] → G h') (iavlKeyHex : String) :
  Upholds apply G
    (fun proof h' _ => Since h h' [] ∧ (proof = none → ShowsNone h' iavlKeyHex) ∧
      ∀ p, proof = some p → Shows h' iavlKeyHex p)
    (fun e h' _ => Since h h' [] ∧ FetchFails h' iavlKeyHex e)
    (fetchStateWithProof iavlKeyHex) h s
  := by
  apply upholds_bind.mpr
  apply (upholds_quiet hG rfl fun _ => rfl).mono
  case hE => exact fun _ _ _ hh' => ⟨hh'.1, .unanswered hh'.2⟩
  rintro result h' s' ⟨hh', happend⟩
  have hgot : .got (.abciQuery "store/wasm/key" ("0x" ++ iavlKeyHex)) (.ok result) ∈ h' := by
    simp [happend]
  apply upholds_fromExcept.mpr
  constructor
  · intro proof hread
    use hh'
    constructor
    · rintro rfl
      exact ⟨result, hgot, hread⟩
    · rintro p rfl
      exact ⟨result, hgot, hread⟩
  · intro e hread
    exact ⟨hh', .unreadable hgot hread⟩

/-! ### Reports -/

/-- The signals for one subscription. -/
inductive Report (l : List Seen) (sub : WireSubscription) : List Signal → Prop
  /-- There is no key to watch. -/
  | skipped : sub.watchKey = "" → Report l sub [.note (number sub.id) .check]
  /-- There is no value, or the condition does not hold of it. -/
  | unmet : sub.watchKey ≠ "" →
      Report l sub [.note (number sub.id) .check, .note (number sub.id) .check]
  /-- The value could not be fetched. -/
  | unfetched : sub.watchKey ≠ "" →
      Report l sub [.note (number sub.id) .check, .note (number sub.id) .error]
  /-- The condition holds, and no proof could be submitted. -/
  | unsent : sub.watchKey ≠ "" →
      Report l sub [.note (number sub.id) .check, .note (number sub.id) .conditionMet,
        .note (number sub.id) .error]
  /-- A proof was submitted and accepted. -/
  | accepted {msg hash} : sub.watchKey ≠ "" → Submits l sub msg →
      Report l sub [.note (number sub.id) .check, .note (number sub.id) .conditionMet, .submit msg,
        .accept msg hash, .note (number sub.id) .proofSubmitted]
  /-- A proof was submitted and not accepted. -/
  | refused {msg} : sub.watchKey ≠ "" → Submits l sub msg →
      Report l sub [.note (number sub.id) .check, .note (number sub.id) .conditionMet, .submit msg,
        .note (number sub.id) .error]

/-- The signals for some subscriptions, one report for each. -/
inductive Reported (l : List Seen) : List Listed → List Signal → Prop
  | nil : Reported l [] []
  | concat {subs sub r r'} : Reported l subs r → Report l sub.toWireSubscription r' →
      Reported l (subs ++ [sub]) (r ++ r')

/-- The signals of a poll for some subscriptions: one report for each, up to one whose key is not
in base64. -/
def Reports (l : List Seen) (subs : List Listed) (r : List Signal) : Prop :=
  Reported l subs r ∨
    ∃ before sub after r', subs = before ++ sub :: after ∧ Reported l before r' ∧
      sub.watchKey ≠ "" ∧ fromBase64 sub.watchKey = none ∧ r = r' ++ [.note (number 0) .error]

/-- The signals begin a report for the subscription. -/
def Begun (l : List Seen) (sub : WireSubscription) (p : List Signal) : Prop :=
  ∃ r, Report l sub r ∧ p <+: r

theorem Report.mono {l l' : List Seen} (hsub : l ⊆ l') {sub : WireSubscription} {r : List Signal}
    (h : Report l sub r) :
  Report l' sub r
  := by
  cases h with
  | skipped hkey => apply Report.skipped hkey
  | unmet hkey => apply Report.unmet hkey
  | unfetched hkey => apply Report.unfetched hkey
  | unsent hkey => apply Report.unsent hkey
  | accepted hkey hsubmits => apply Report.accepted hkey (hsubmits.mono hsub)
  | refused hkey hsubmits => apply Report.refused hkey (hsubmits.mono hsub)

theorem Reported.mono {l l' : List Seen} (hsub : l ⊆ l') {subs : List Listed} {r : List Signal}
    (h : Reported l subs r) :
  Reported l' subs r
  := by
  induction h with
  | nil => apply Reported.nil
  | concat _ hreport ih => apply ih.concat (hreport.mono hsub)

/-- Signals so far can be completed to those of a whole poll. -/
theorem Reported.complete {l : List Seen} {before : List Listed} {r : List Signal}
    (h : Reported l before r) (after : List Listed) :
  ∃ r', Reports l (before ++ after) (r ++ r')
  := by
  induction after generalizing before r with
  | nil =>
      use []
      left
      simpa using h
  | cons sub after ih =>
      by_cases hkey : sub.watchKey = ""
      · obtain ⟨r', hr'⟩ := ih (h.concat (.skipped hkey))
        rw [List.append_assoc, List.append_assoc] at hr'
        exact ⟨_, hr'⟩
      · cases hread : fromBase64 sub.watchKey with
        | none =>
            use [.note (number 0) .error]
            right
            exact ⟨before, sub, after, r, rfl, h, hkey, hread, rfl⟩
        | some watchKey =>
            obtain ⟨r', hr'⟩ := ih (h.concat (.unfetched hkey))
            rw [List.append_assoc, List.append_assoc] at hr'
            exact ⟨_, hr'⟩

/-- A report begun after those before can be completed too. -/
theorem Reported.complete_begun {l : List Seen} {before : List Listed} {r p : List Signal}
    (h : Reported l before r) {sub : Listed} (hp : Begun l sub.toWireSubscription p)
    (after : List Listed) :
  ∃ r', Reports l (before ++ sub :: after) r' ∧ r ++ p <+: r'
  := by
  obtain ⟨r₁, hr₁, hprefix⟩ := hp
  obtain ⟨r₂, hr₂⟩ := (h.concat hr₁).complete after
  rw [List.append_assoc] at hr₂
  use r ++ r₁ ++ r₂, hr₂
  rw [List.append_assoc, List.prefix_append_right_inj]
  apply hprefix.trans (List.prefix_append r₁ r₂)

section Parts

variable {G : List Seen → Prop} {h : List Seen} {s : State}

/-- A report for a subscription is completed, or all but its last event. -/
theorem upholds_checkAndSubmit {sub : WireSubscription} {watchKey : Binary}
    (hkey : sub.watchKey ≠ "") (hread : fromBase64 sub.watchKey = some watchKey)
    (hG : ∀ h' p, Since h h' p → Begun h' sub (.note (number sub.id) .check :: p) → G h')
    (mnemonic : String) :
  Upholds apply G
    (fun _ h' _ => ∃ r, Since h h' r ∧ Report h' sub (.note (number sub.id) .check :: r))
    (fun _ h' _ => ∃ r, Since h h' r ∧
      Report h' sub (.note (number sub.id) .check :: r ++ [.note (number sub.id) .error]))
    (checkAndSubmit sub mnemonic (String.ofList (bytesToHex watchKey))) h s
  := by
  have hbegun : ∀ {h' r p}, Report h' sub (.note (number sub.id) .check :: r) → Since h h' p →
      p <+: r → G h' := fun hr hp hprefix =>
    hG _ _ hp ⟨_, hr, (List.prefix_cons_inj _).mpr hprefix⟩
  apply upholds_bind.mpr
  apply (upholds_fetchStateWithProof (fun h' hh' =>
    hbegun (.unmet hkey) hh' List.nil_prefix) _).mono
  case hE => exact fun _ _ _ hh' => ⟨[], hh'.1, .unfetched hkey⟩
  rintro proof h₁ s₁ ⟨hh₁, -, hshown⟩
  cases proof with
  | none =>
      apply upholds_perform
      · intro h' hh'
        apply hbegun (.unmet hkey) (hh₁.quiet hh') (List.prefix_refl _)
      · intro h' s' hh'
        exact ⟨_, hh₁.quiet hh', .unmet hkey⟩
  | some proof =>
      dsimp only
      split
      case isTrue hunmet =>
          apply upholds_perform
          · intro h' hh'
            apply hbegun (.unmet hkey) (hh₁.quiet hh') (List.prefix_refl _)
          · intro h' s' hh'
            exact ⟨_, hh₁.quiet hh', .unmet hkey⟩
      case isFalse hmet =>
          apply upholds_bind.mpr
          apply upholds_perform
          · intro h' hh'
            apply hbegun (.unsent hkey) (hh₁.quiet hh') (List.prefix_append _ [_])
          intro h₂ s₂ hh₂
          have hh₂' := hh₁.quiet hh₂
          -- a message with a hash that was shown is what should be submitted
          have hsubmits : ∀ {h' p appHash}, Since h₂ h' p → ShowsHash h' proof.height appHash →
              Submits h' sub (submitMsg (number sub.id) proof appHash) := fun hh' hhash =>
            ⟨watchKey, proof, hread, by simpa using hmet,
              (hshown proof rfl).mono ((hh₂.trans hh').subset), _, hhash, rfl⟩
          apply upholds_bind.mpr
          refine (upholds_signAndSubmit ?_ mnemonic).mono ?_ ?_
          · intro h' p hp
            cases hp with
            | pending hh' =>
                apply hbegun (.unsent hkey) (hh₂'.trans hh') (List.prefix_append _ [_])
            | asked hhash hh' =>
                apply hbegun (.refused hkey (hsubmits hh' hhash)) (hh₂'.trans hh')
                  (List.prefix_append _ [_])
            | got hhash hh' =>
                apply hbegun (.accepted hkey (hsubmits hh' hhash)) (hh₂'.trans hh')
                  (List.prefix_append _ [_])
            | noted hhash hh' =>
                apply hbegun (.accepted hkey (hsubmits hh' hhash)) (hh₂'.trans hh')
                  (List.prefix_refl _)
          · rintro _ h' s' ⟨appHash, hhash, hh'⟩
            exact ⟨_, hh₂'.trans hh', .accepted hkey (hsubmits hh' hhash)⟩
          · rintro e h' s' (⟨hh', -⟩ | ⟨appHash, ⟨hhash, hh'⟩, -⟩)
            · exact ⟨_, hh₂'.trans hh', .unsent hkey⟩
            · exact ⟨_, hh₂'.trans hh', .refused hkey (hsubmits hh' hhash)⟩

/-- A subscription whose key can be read is reported on. -/
theorem upholds_processSubscription {sub : WireSubscription}
    (hG : ∀ h' p, Since h h' p → Begun h' sub p → G h') (mnemonic : String) :
  Upholds apply G (fun _ h' _ => ∃ r, Since h h' r ∧ Report h' sub r)
    (fun _ h' _ => h' = h ∧ sub.watchKey ≠ "" ∧ fromBase64 sub.watchKey = none)
    (processSubscription sub mnemonic) h s
  := by
  rw [processSubscription]
  split
  case isTrue hkey =>
      apply upholds_perform
      · intro h' hh'
        apply hG _ _ hh' ⟨_, .skipped hkey, List.prefix_refl _⟩
      · intro h' s' hh'
        exact ⟨_, hh', .skipped hkey⟩
  case isFalse hkey =>
      apply upholds_bind.mpr
      apply upholds_fromExcept.mpr
      constructor
      · intro watchKey hread
        rw [orThrow.eq_def] at hread
        split at hread
        case h_2 => contradiction
        case h_1 hsome =>
            obtain rfl := Except.ok.inj hread
            apply upholds_bind.mpr
            apply upholds_perform
            · intro h' hh'
              apply hG _ _ hh' ⟨_, .unmet hkey, List.prefix_append _ [_]⟩
            intro h₁ s₁ hh₁
            apply upholds_handle.mpr
            refine (upholds_checkAndSubmit hkey hsome ?_ mnemonic).mono ?_ ?_
            · intro h' p hh' hp
              apply hG _ _ (hh₁.trans hh') hp
            · rintro _ h' s' ⟨r, hh', hr⟩
              exact ⟨_, hh₁.trans hh', hr⟩
            · rintro e h₂ s₂ ⟨r, hh₂, hr⟩
              have hdone : ∀ h', Since h₂ h' [.note (number sub.id) .error] →
                  Since h h' (.note (number sub.id) .check :: r ++ [.note (number sub.id) .error]) ∧
                  Report h' sub
                    (.note (number sub.id) .check :: r ++ [.note (number sub.id) .error]) :=
                fun h' hh' => ⟨hh₁.trans (hh₂.trans hh'), hr.mono hh'.subset⟩
              apply upholds_perform
              · intro h' hh'
                apply hG _ _ (hdone h' hh').1 ⟨_, (hdone h' hh').2, List.prefix_refl _⟩
              · intro h' s' hh'
                exact ⟨_, hdone h' hh'⟩
      · intro e hread
        rw [orThrow.eq_def] at hread
        split at hread
        case h_1 => contradiction
        case h_2 hnone => exact ⟨rfl, hkey, hnone⟩

end Parts

/-! ### A poll -/

/-- The signals of a poll. -/
inductive PollReports (mnemonic : Option String) (l : List Seen) : List Signal → Prop
  /-- The list was not got. -/
  | unlisted : listed l = none → PollReports mnemonic l [.note (number 0) .error]
  /-- The watcher may not sign. -/
  | readOnly {subs} : listed l = some subs → truthyMnemonic mnemonic = none →
      PollReports mnemonic l []
  /-- There is a report for each subscription. -/
  | reports {subs secret r} : listed l = some subs → truthyMnemonic mnemonic = some secret →
      Reports l subs r → PollReports mnemonic l r

/-- The signals are the first ones of a poll. -/
def PollBegun (mnemonic : Option String) (l : List Seen) : Prop :=
  ∃ r, PollReports mnemonic l r ∧ signals l <+: r

/-- All that is missing from the signals of the poll is that it failed. -/
def PollFailing (mnemonic : Option String) (h : List Seen) : Prop :=
  ∀ l, listed l = none → PollReports mnemonic (h ++ l) (signals h ++ [.note (number 0) .error])

section Poll

variable {mnemonic : Option String} {secret : String} {h : List Seen} {s : State}
  {subs : List Listed}

/-- The loop over the subscriptions gives the reports. -/
theorem upholds_reports (hquiet : signals h = []) (hlisted : listed h = some subs)
    (hsecret : truthyMnemonic mnemonic = some secret) :
  Upholds apply (PollBegun mnemonic) (fun _ h' _ => PollReports mnemonic h' (signals h'))
    (fun _ h' _ => PollFailing mnemonic h')
    (forEach subs fun sub => processSubscription sub.toWireSubscription secret) h s
  := by
  apply (upholds_forEach
    (I := fun rest h' => ∃ before r, subs = before ++ rest ∧ Reported h' before r ∧ Since h h' r)
    (E := fun _ h' _ => ∃ before sub after r, subs = before ++ sub :: after ∧
      Reported h' before r ∧ Since h h' r ∧ sub.watchKey ≠ "" ∧ fromBase64 sub.watchKey = none)
    ⟨[], [], rfl, .nil, since_refl h⟩ ?_).mono
  · rintro _ h' s' ⟨before, r, rfl, hr, hh'⟩
    rw [hh'.signals hquiet]
    apply PollReports.reports (hh'.listed hlisted) hsecret
    left
    simpa using hr
  · rintro e h₁ s₁ ⟨before, sub, after, r, rfl, hr, hh₁, hkey, hread⟩ l -
    rw [hh₁.signals hquiet]
    apply PollReports.reports ((hh₁.trans (since_append h₁ l)).listed hlisted) hsecret
    right
    exact ⟨before, sub, after, r, rfl, hr.mono (List.subset_append_left _ _), hkey, hread, rfl⟩
  · rintro sub rest h₁ s₁ ⟨before, r, rfl, hr, hh₁⟩
    apply (upholds_processSubscription _ secret).mono
    · rintro _ h' s' ⟨r', hh', hr'⟩
      exact ⟨before ++ [sub], r ++ r', by simp, (hr.mono hh'.subset).concat hr', hh₁.trans hh'⟩
    · rintro e h' s' ⟨rfl, hkey, hread⟩
      exact ⟨before, sub, rest, r, rfl, hr, hh₁, hkey, hread⟩
    · intro h' p hh' hp
      obtain ⟨r', hr', hprefix⟩ := (hr.mono hh'.subset).complete_begun hp rest
      refine ⟨r', .reports ((hh₁.trans hh').listed hlisted) hsecret hr', ?_⟩
      rw [(hh₁.trans hh').signals hquiet]
      apply hprefix

/-- As long as there are no signals, a poll has begun. -/
theorem pollBegun_quiet (mnemonic : Option String) {l : List Seen} (hquiet : signals l = []) :
  PollBegun mnemonic l
  := by
  cases hlisted : listed l with
  | none => exact ⟨_, .unlisted hlisted, hquiet ▸ List.nil_prefix⟩
  | some subs =>
      cases hsecret : truthyMnemonic mnemonic with
      | none => exact ⟨_, .readOnly hlisted hsecret, hquiet ▸ List.nil_prefix⟩
      | some secret =>
          obtain ⟨r, hr⟩ := (Reported.nil (l := l)).complete subs
          exact ⟨_, .reports hlisted hsecret hr, hquiet ▸ List.nil_prefix⟩

/-- Where the list is known, its reports are given. -/
theorem upholds_pollListed (hsignals : signals h = []) (hlisted : listed h = some subs) :
  Upholds apply (PollBegun mnemonic) (fun _ h' _ => PollReports mnemonic h' (signals h'))
    (fun _ h' _ => PollFailing mnemonic h') (pollListed mnemonic subs) h s
  := by
  have hquiet : ∀ h', Since h h' [] → PollBegun mnemonic h' := fun h' hh' =>
    pollBegun_quiet mnemonic (hh'.signals hsignals)
  have hset := since_append h [.did (.setSubscriptions subs)]
  have hchecked := hset.quiet (since_append _ [.did .setLastCheck])
  have hcleared := hchecked.quiet (since_append _ [.did (.setError none)])
  refine ⟨hquiet _ hset, hquiet _ hchecked, hquiet _ hcleared,
    hquiet _ (hcleared.quiet (since_append _ _)), ?_⟩
  generalize hstate : apply (.setError none) (apply .setLastCheck
    (apply (.setSubscriptions subs) s)) = state
  have hsubs : state.subscriptions = subs := by rw [← hstate]; rfl
  have hseen := hcleared.quiet (since_append _ [.saw state])
  generalize h ++ _ ++ _ ++ _ ++ _ = h₁ at hseen ⊢
  have hdone : ∀ {h'}, Since h h' [] →
      (∀ secret, truthyMnemonic mnemonic = some secret → subs = []) →
      PollReports mnemonic h' (signals h') := by
    intro h' hh' hnone
    rw [hh'.signals hsignals]
    cases hsecret : truthyMnemonic mnemonic with
    | none => apply PollReports.readOnly (hh'.listed hlisted) hsecret
    | some secret =>
        apply PollReports.reports (hh'.listed hlisted) hsecret
        rw [hnone secret hsecret]
        exact .inl .nil
  show Upholds apply _ _ _ (if state.subscriptions.length = 0 then _ else _) h₁ _
  split
  case isTrue hempty =>
      apply hdone hseen
      intro _ _
      rwa [hsubs, List.length_eq_zero_iff] at hempty
  case isFalse =>
      cases hsecret : truthyMnemonic mnemonic with
      | none =>
          have herror := hseen.quiet (since_append h₁ [.did (.setError (some
            (Json.str "WATCHER_MNEMONIC not set — watching in read-only mode")))])
          exact ⟨hquiet _ herror, hdone herror (by simp [hsecret])⟩
      | some secret =>
          have hagain := hseen.quiet (since_append h₁ [.saw state])
          refine ⟨hquiet _ hagain, ?_⟩
          show Upholds apply _ _ _ (forEach state.subscriptions _) _ _
          rw [hsubs]
          apply upholds_reports (hagain.signals hsignals) (hagain.listed hlisted) hsecret

/-- A poll gives its reports. -/
theorem upholds_pollSubscriptions (hsignals : signals h = []) (hlisted : listed h = none) :
  Upholds apply (PollBegun mnemonic) (fun _ h' _ => PollReports mnemonic h' (signals h'))
    (fun _ h' _ => PollFailing mnemonic h') (pollSubscriptions mnemonic) h s
  := by
  have hquiet : ∀ h', Since h h' [] → PollBegun mnemonic h' := fun h' hh' =>
    pollBegun_quiet mnemonic (hh'.signals hsignals)
  have hfailing : ∀ l, listed l = none → signals l = [] → PollFailing mnemonic (h ++ l) := by
    intro l hl hs l' hl'
    rw [signals_append, hsignals, hs]
    apply PollReports.unlisted
    simp only [listed_append, hlisted, hl, hl', Option.or_none]
  apply upholds_bind.mpr
  apply upholds_bind.mpr
  apply upholds_request.mpr
  refine ⟨hquiet _ (since_append _ _), fun s₁ => ⟨fun _ => ⟨hquiet _ (since_append _ _), ?_⟩,
    fun e => ⟨hquiet _ (since_append _ _), hfailing _ rfl rfl⟩⟩⟩
  have hconnected := since_append h [.asked .connect, .got .connect (.ok ())]
  apply upholds_bind.mpr
  apply upholds_request.mpr
  refine ⟨hquiet _ (hconnected.quiet (since_append _ _)), fun s₂ => ⟨fun subscriptions =>
    ⟨hquiet _ (hconnected.quiet (since_append _ _)), ?_⟩, fun e =>
    ⟨hquiet _ (hconnected.quiet (since_append _ _)), ?_⟩⟩⟩
  · apply upholds_pollListed
    · apply (hconnected.quiet (since_append _ _)).signals hsignals
    · rw [listed_append, listed_append, hlisted]
      rfl
  · rw [List.append_assoc]
    apply hfailing _ rfl rfl

/-- A poll gives its reports, and does not fail. -/
theorem upholds_pollOnce (mnemonic : Option String) (s : State) :
  Upholds apply (PollBegun mnemonic) (fun _ h' _ => PollReports mnemonic h' (signals h'))
    (fun _ _ _ => False) (pollOnce mnemonic) [] s
  := by
  apply upholds_handle.mpr
  apply (upholds_pollSubscriptions rfl rfl).mono
  · exact fun _ _ _ hr => hr
  rintro e h s hfailing
  have hquiet : ∀ l, listed l = none → signals l = [] → PollBegun mnemonic (h ++ l) := by
    intro l hl hs
    refine ⟨_, hfailing l hl, ?_⟩
    rw [signals_append, hs, List.append_nil]
    apply List.prefix_append
  have hnoted : ∀ l, listed l = none → signals l = [.note (number 0) .error] →
      PollReports mnemonic (h ++ l) (signals (h ++ l)) := by
    intro l hl hs
    rw [signals_append, hs]
    apply hfailing l hl
  let state := apply (.setError (some e.text)) s
  have hdone := hnoted [.did (.setError (some e.text)), .saw state, .did (.addEvent ⟨number 0,
    .error, Json.str "Poll error: " ++ state.error.getD (Json.str "null"), none⟩)] rfl rfl
  have hseen := hquiet [.did (.setError (some e.text)), .saw state] rfl rfl
  refine ⟨hquiet _ rfl rfl, ?_, ?_, ?_⟩
  · simpa using hseen
  · rw [List.append_assoc, List.append_assoc]
    exact ⟨_, hdone, List.prefix_refl _⟩
  · show PollReports mnemonic (h ++ _ ++ _ ++ _) (signals (h ++ _ ++ _ ++ _))
    rw [List.append_assoc, List.append_assoc]
    apply hdone

end Poll

/-- In any run of the event loop, with any other tasks and at any time, a poll has given the first
signals of its reports, and if it is done, all of them. A poll never fails. -/
theorem poll_reports {clock : ℕ} {tasks : List Task} {h : List (Loop × Happening)} {s : Loop}
    (hruns : Runs clock tasks h s) {i : ℕ} {mnemonic : Option String}
    (hpoll : tasks[i]? = some (.poll mnemonic)) :
  PollBegun mnemonic (taskTrace apply h i) ∧
    (s.tasks[i]? = some (.done ()) →
      PollReports mnemonic (taskTrace apply h i) (signals (taskTrace apply h i))) ∧
    ∀ e, s.tasks[i]? ≠ some (.fail e)
  := by
  have hprogram : (programs h)[i]? = some (pollOnce mnemonic) := by
    rw [hruns.programs, List.getElem?_map, hpoll]
    rfl
  obtain ⟨s', q, hq, hafter⟩ := (after_taskTrace hruns.run).2.2 i _ hprogram
  obtain ⟨hbegun, hdone, hfail⟩ :=
    (upholds_pollOnce mnemonic s').after (pollBegun_quiet mnemonic rfl) hafter
  refine ⟨hbegun _ (List.prefix_refl _), ?_, ?_⟩
  · intro htask
    obtain rfl := Option.some.inj (hq.symm.trans htask)
    obtain ⟨-, hreports⟩ := hdone () rfl
    apply hreports
  · intro e htask
    obtain rfl := Option.some.inj (hq.symm.trans htask)
    obtain ⟨-, hfalse⟩ := hfail e rfl
    apply hfalse

end

theorem poll_reports_sample :
  ∃ h s, @Runs sampleHost 0 [.poll (some "secret")] h s ∧ s.tasks[0]? = some (.done ()) ∧
    @PollReports sampleHost (some "secret") (taskTrace apply h 0) (signals (taskTrace apply h 0)) ∧
    ∃ msg, Signal.submit msg ∈ signals (taskTrace apply h 0)
  := by
  let _ : Host := sampleHost
  have hsome : (sampleRun (.poll (some "secret")) 8).isSome = true := rfl
  have hruns : Runs 0 [.poll (some "secret")]
      ((sampleRun (.poll (some "secret")) 8).get hsome).1
      ((sampleRun (.poll (some "secret")) 8).get hsome).2 :=
    ⟨Machine.run_of_exec (Option.some_get hsome).symm, rfl⟩
  refine ⟨_, _, hruns, rfl, (poll_reports hruns rfl).2.1 rfl,
    submitMsg (number 7) ⟨[1], [1], heightOf "5", []⟩ (hexToBytes "ab".toList), ?_⟩
  apply List.mem_of_getElem? (i := 2)
  rfl

end Watcher.Tasks
