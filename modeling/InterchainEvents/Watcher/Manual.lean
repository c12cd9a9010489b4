import InterchainEvents.Watcher.Reports

/-!
# Submissions asked for by hand

The endpoint submits a proof for a subscription when it is asked to, while polls go on. It answers
once, unless the request has no body. It submits at most once, what a node has shown for the key it
was given, and only where the condition of the subscription, as the latest list has it under the
number it was given, holds of the value. It answers with the hash of a transaction exactly when the
chain has accepted the proof in that transaction, and otherwise with what went wrong
(`post_reports`).
-/

namespace Watcher.Tasks

open Shared Async

/-! ### Permission -/

/-- A submission of the value is permitted: the condition holds if the subscription is listed. -/
def permits (state : State) (subscriptionId : Json.Doc) (value : Binary) : Bool :=
  (state.subscriptions.find? fun s => identical s.id subscriptionId).all fun sub =>
    checkCondition sub.condition value

/-- A submission is permitted where the condition of a listed subscription does not fail. -/
theorem permits_eq_not_any (state : State) (id : Json.Doc) (value : Binary) :
  permits state id value = !(state.subscriptions.find? fun s => identical s.id id).any fun sub =>
    !checkCondition sub.condition value
  := by
  rw [permits]
  cases state.subscriptions.find? fun s => identical s.id id with
  | none => rfl
  | some sub => simp

/-- The text of a key, as it goes into the address of a query. -/
def KeyText (iavlKeyHex : Json.Doc) (key : String) : Prop :=
  ∃ t, Js.docText iavlKeyHex = some t ∧ key = String.ofList (Utf16.text t)

/-- The message of an error that the endpoint answers. -/
def answerText (e : Failure) : String :=
  if e.message = "" then "Failed to submit proof" else e.message

/-- What is thrown for a request without a body. -/
def bodyless : Option Json.Doc → Option Failure
  | none => some (undefinedProperty "subscription_id")
  | some .null => some (nullProperty "subscription_id")
  | some _ => none

theorem exists_body {body : Option Json.Doc} (h : bodyless body = none) :
  ∃ d, body = some d ∧ d ≠ .null
  := by
  cases body with
  | none => cases h
  | some d =>
      refine ⟨d, rfl, ?_⟩
      rintro rfl
      cases h

section

variable [host : Host]

/-- A proof was shown for the key, and a state of the watcher permits to submit it. -/
def Permitted (l : List Seen) (subscriptionId iavlKeyHex : Json.Doc) (proof : StateProof) : Prop :=
  (∃ key, KeyText iavlKeyHex key ∧ Shows l key proof) ∧
    ∃ state, .saw state ∈ l ∧ permits state subscriptionId proof.value

/-- A message carries what a node has shown for the key, and its submission is permitted. -/
def Grants (l : List Seen) (subscriptionId iavlKeyHex : Json.Doc) (msg : SubmitMsg Json.Doc) :
    Prop :=
  ∃ key proof, KeyText iavlKeyHex key ∧ Permitted l subscriptionId iavlKeyHex proof ∧
    Carries l key subscriptionId proof msg

/-! ### Reports -/

/-- The signals before the answer to a request that can be read. -/
inductive Course (l : List Seen) (id iavlKeyHex : Json.Doc) : List Signal → Prop
  | waiting : Course l id iavlKeyHex []
  | fetching : Course l id iavlKeyHex [.note id .check]
  /-- The condition does not hold of the value. -/
  | unmet {key proof state} : KeyText iavlKeyHex key → Shows l key proof → .saw state ∈ l →
      permits state id proof.value = false →
      Course l id iavlKeyHex [.note id .check, .note id .check]
  | met {proof} : Permitted l id iavlKeyHex proof →
      Course l id iavlKeyHex [.note id .check, .note id .conditionMet]
  | submitted {msg} : Grants l id iavlKeyHex msg →
      Course l id iavlKeyHex [.note id .check, .note id .conditionMet, .submit msg]
  | accepted {msg hash} : Grants l id iavlKeyHex msg →
      Course l id iavlKeyHex [.note id .check, .note id .conditionMet, .submit msg,
        .accept msg hash]
  | noted {msg hash} : Grants l id iavlKeyHex msg →
      Course l id iavlKeyHex [.note id .check, .note id .conditionMet, .submit msg,
        .accept msg hash, .note id .proofSubmitted]

/-- What has failed after these signals. -/
inductive Fails (l : List Seen) (id iavlKeyHex : Json.Doc) : List Signal → Failure → Prop
  /-- The number has no text. -/
  | nameless : Js.docText id = none → Fails l id iavlKeyHex [] noPrimitive
  /-- The key has no text. -/
  | keyless : Js.docText iavlKeyHex = none → Fails l id iavlKeyHex [.note id .check] noPrimitive
  /-- The value could not be fetched. -/
  | unfetched {key e} : KeyText iavlKeyHex key → FetchFails l key e →
      Fails l id iavlKeyHex [.note id .check] e
  /-- There is no value. -/
  | absent {key} : KeyText iavlKeyHex key → ShowsNone l key →
      Fails l id iavlKeyHex [.note id .check] (.ofMessage "State not found at this key")
  /-- The condition does not hold of the value. -/
  | unmet {key proof state} : KeyText iavlKeyHex key → Shows l key proof → .saw state ∈ l →
      permits state id proof.value = false →
      Fails l id iavlKeyHex [.note id .check, .note id .check] (.ofMessage "Condition not met")
  /-- No proof could be submitted. -/
  | unsent {proof e} : Permitted l id iavlKeyHex proof → SigningFails l proof.height e →
      Fails l id iavlKeyHex [.note id .check, .note id .conditionMet] e
  /-- A proof was submitted and not accepted. -/
  | refused {sender msg e} : Grants l id iavlKeyHex msg →
      .got (.execute sender msg) (.error e) ∈ l →
      Fails l id iavlKeyHex [.note id .check, .note id .conditionMet, .submit msg] e

/-- The signals for a request that can be read. -/
inductive ManualReport (l : List Seen) (id iavlKeyHex : Json.Doc) : List Signal → Prop
  /-- Something has failed, and the answer says what. -/
  | failed {r e} : Fails l id iavlKeyHex r e →
      ManualReport l id iavlKeyHex (r ++ [.answer (.error 500 (answerText e))])
  /-- A proof was submitted and accepted. -/
  | accepted {msg hash} : Grants l id iavlKeyHex msg →
      ManualReport l id iavlKeyHex [.note id .check, .note id .conditionMet, .submit msg,
        .accept msg hash, .note id .proofSubmitted, .answer (.ok hash)]

/-- The signals for a request with a body. -/
inductive PostReports (mnemonic : Option String) (body : Json.Doc) (l : List Seen) :
    List Signal → Prop
  /-- The number or the key is missing, or does not count as true. -/
  | incomplete : requested body = none → PostReports mnemonic body l
      [.answer (.error 400 "subscription_id and iavl_key_hex are required")]
  /-- The watcher may not sign. -/
  | readOnly {id iavlKeyHex} : requested body = some (id, iavlKeyHex) →
      truthyMnemonic mnemonic = none →
      PostReports mnemonic body l [.answer (.error 500 "WATCHER_MNEMONIC not set")]
  | reports {id iavlKeyHex secret r} : requested body = some (id, iavlKeyHex) →
      truthyMnemonic mnemonic = some secret → ManualReport l id iavlKeyHex r →
      PostReports mnemonic body l r

/-- The signals for a request so far: they are before the answer, or all of them. -/
inductive PostBegun (mnemonic : Option String) (body : Option Json.Doc) (l : List Seen) :
    List Signal → Prop
  | waiting : PostBegun mnemonic body l []
  | course {d id iavlKeyHex secret r} : body = some d → requested d = some (id, iavlKeyHex) →
      truthyMnemonic mnemonic = some secret → Course l id iavlKeyHex r →
      PostBegun mnemonic body l r
  | reports {d r} : body = some d → PostReports mnemonic d l r → PostBegun mnemonic body l r

/-! ### Growing evidence -/

theorem Permitted.mono {l l' : List Seen} (hsub : l ⊆ l') {id iavlKeyHex : Json.Doc}
    {proof : StateProof} (h : Permitted l id iavlKeyHex proof) :
  Permitted l' id iavlKeyHex proof
  := by
  obtain ⟨⟨key, hkey, hshows⟩, state, hstate, hpermits⟩ := h
  exact ⟨⟨key, hkey, hshows.mono hsub⟩, state, hsub hstate, hpermits⟩

theorem Grants.mono {l l' : List Seen} (hsub : l ⊆ l') {id iavlKeyHex : Json.Doc}
    {msg : SubmitMsg Json.Doc} (h : Grants l id iavlKeyHex msg) :
  Grants l' id iavlKeyHex msg
  := by
  obtain ⟨key, proof, hkey, hpermitted, hcarries⟩ := h
  exact ⟨key, proof, hkey, hpermitted.mono hsub, hcarries.mono hsub⟩

theorem Fails.mono {l l' : List Seen} (hsub : l.Sublist l') {id iavlKeyHex : Json.Doc}
    {r : List Signal} {e : Failure} (h : Fails l id iavlKeyHex r e) :
  Fails l' id iavlKeyHex r e
  := by
  cases h with
  | nameless hid => apply Fails.nameless hid
  | keyless hhex => apply Fails.keyless hhex
  | unfetched hkey hfails => apply Fails.unfetched hkey (hfails.mono hsub.subset)
  | absent hkey hnone => apply Fails.absent hkey (hnone.mono hsub.subset)
  | unmet hkey hshows hstate hpermits =>
      apply Fails.unmet hkey (hshows.mono hsub.subset) (hsub.subset hstate) hpermits
  | unsent hpermitted hfails => apply Fails.unsent (hpermitted.mono hsub.subset) (hfails.mono hsub)
  | refused hgrants hmem => apply Fails.refused (hgrants.mono hsub.subset) (hsub.subset hmem)

theorem ManualReport.mono {l l' : List Seen} (hsub : l.Sublist l') {id iavlKeyHex : Json.Doc}
    {r : List Signal} (h : ManualReport l id iavlKeyHex r) :
  ManualReport l' id iavlKeyHex r
  := by
  cases h with
  | failed hfails => apply ManualReport.failed (hfails.mono hsub)
  | accepted hgrants => apply ManualReport.accepted (hgrants.mono hsub.subset)

theorem PostReports.mono {mnemonic : Option String} {body : Json.Doc} {l l' : List Seen}
    (hsub : l.Sublist l') {r : List Signal} (h : PostReports mnemonic body l r) :
  PostReports mnemonic body l' r
  := by
  cases h with
  | incomplete hnone => apply PostReports.incomplete hnone
  | readOnly hbody hnone => apply PostReports.readOnly hbody hnone
  | reports hbody hsecret hreport => apply PostReports.reports hbody hsecret (hreport.mono hsub)

/-! ### A submission -/

section Submission

variable {G : List Seen → Prop} {h : List Seen} {s : State} {id iavlKeyHex : Json.Doc}

/-- A submission that was permitted ends with a proof accepted, or with what has failed. -/
theorem upholds_permitted {key : String} {proof : StateProof} (hkey : KeyText iavlKeyHex key)
    (hshows : ∀ {h' p}, Since h h' p → Shows h' key proof)
    (hpermitted : ∀ {h' p}, Since h h' p → Permitted h' id iavlKeyHex proof)
    {r : List Signal} (hr : r = [.note id .check, .note id .conditionMet])
    (hG : ∀ h' p, Since h h' p → Course h' id iavlKeyHex (r ++ p) → G h') (mnemonic : String) :
  Upholds apply G
    (fun hash h' _ => ∃ p, Since h h' p ∧
      ManualReport h' id iavlKeyHex (r ++ p ++ [.answer (.ok hash)]))
    (fun e h' _ => ∃ p, Since h h' p ∧ Fails h' id iavlKeyHex (r ++ p) e)
    (signAndSubmit mnemonic id proof) h s
  := by
  subst hr
  have hgrants : ∀ {h' p appHash}, Since h h' p → ShowsHash h' proof.height appHash →
      Grants h' id iavlKeyHex (submitMsg id proof appHash) := fun hh' hhash =>
    ⟨key, proof, hkey, hpermitted hh', hshows hh', _, hhash, rfl⟩
  refine (upholds_signAndSubmit ?_ mnemonic).mono ?_ ?_
  · intro h' p hp
    cases hp with
    | pending hh' => apply hG _ _ hh' (.met (hpermitted hh'))
    | asked hhash hh' => apply hG _ _ hh' (.submitted (hgrants hh' hhash))
    | got hhash hh' => apply hG _ _ hh' (.accepted (hgrants hh' hhash))
    | noted hhash hh' => apply hG _ _ hh' (.noted (hgrants hh' hhash))
  · rintro hash h' s' ⟨appHash, hhash, hh'⟩
    exact ⟨_, hh', .accepted (hgrants hh' hhash)⟩
  · rintro e h' s' (⟨hh', hfails⟩ | ⟨appHash, ⟨hhash, hh'⟩, sender, hmem⟩)
    · exact ⟨_, hh', .unsent (hpermitted hh') hfails⟩
    · exact ⟨_, hh', .refused (hgrants hh' hhash) hmem⟩

/-- A submission that can sign gives a report, all but the answer. -/
theorem upholds_submitProofForSubscription {mnemonic : Option String} {secret : String}
    (hsecret : truthyMnemonic mnemonic = some secret)
    (hG : ∀ h' p, Since h h' p → Course h' id iavlKeyHex p → G h') :
  Upholds apply G
    (fun hash h' _ => ∃ r, Since h h' r ∧
      ManualReport h' id iavlKeyHex (r ++ [.answer (.ok hash)]))
    (fun e h' _ => ∃ r, Since h h' r ∧ Fails h' id iavlKeyHex r e)
    (submitProofForSubscription mnemonic id iavlKeyHex) h s
  := by
  rw [submitProofForSubscription, hsecret]
  apply upholds_bind.mpr
  apply upholds_fromExcept.mpr
  cases hid : Js.docText id with
  | none =>
      rw [template, hid]
      refine ⟨nofun, ?_⟩
      rintro e ⟨⟩
      exact ⟨[], since_refl h, .nameless hid⟩
  | some idText =>
  rw [template, hid]
  refine ⟨?_, nofun⟩
  rintro idText ⟨⟩
  apply upholds_bind.mpr
  apply upholds_perform fun h' hh' => hG _ _ hh' .fetching
  intro h₁ s₁ hh₁
  apply upholds_bind.mpr
  apply upholds_fromExcept.mpr
  cases hhex : Js.docText iavlKeyHex with
  | none =>
      rw [template, hhex]
      refine ⟨nofun, ?_⟩
      rintro e ⟨⟩
      exact ⟨_, hh₁, .keyless hhex⟩
  | some keyText =>
  rw [template, hhex]
  refine ⟨?_, nofun⟩
  rintro keyText ⟨⟩
  have hkey : KeyText iavlKeyHex (String.ofList (Utf16.text keyText)) := ⟨_, hhex, rfl⟩
  apply upholds_bind.mpr
  apply (upholds_fetchStateWithProof (fun h' hh' => hG _ _ (hh₁.trans hh') .fetching) _).mono
  case hE => exact fun e h' _ hh' => ⟨_, hh₁.trans hh'.1, .unfetched hkey hh'.2⟩
  rintro proof h₂ s₂ ⟨hh₂, hnone, hshown⟩
  cases proof with
  | none => exact ⟨_, hh₁.trans hh₂, .absent hkey (hnone rfl)⟩
  | some proof =>
      -- the state of the watcher is read, and nothing happens before it is used
      have hseen := (hh₁.trans hh₂).trans (since_append h₂ [.saw s₂])
      have hshows : ∀ {h' p}, Since (h₂ ++ [.saw s₂]) h' p →
          Shows h' (String.ofList (Utf16.text keyText)) proof := fun hh' =>
        (hshown proof rfl).mono ((since_append h₂ [.saw s₂]).trans hh').subset
      have hstate : ∀ {h' p}, Since (h₂ ++ [.saw s₂]) h' p → .saw s₂ ∈ h' := fun hh' =>
        hh'.subset (List.mem_append_right _ (List.mem_singleton_self _))
      refine ⟨hG _ _ hseen .fetching, ?_⟩
      generalize h₂ ++ [Observation.saw s₂] = h₃ at hseen hshows hstate ⊢
      show Upholds apply G _ _ (if _ then _ else _) h₃ s₂
      split
      case isTrue hunmet =>
          have hpermits : permits s₂ id proof.value = false := by
            rw [permits_eq_not_any, hunmet]
            rfl
          apply upholds_bind.mpr
          apply upholds_perform
          · intro h' hh'
            apply hG _ _ (hseen.trans hh') (.unmet hkey (hshows hh') (hstate hh') hpermits)
          · intro h' s' hh'
            exact ⟨_, hseen.trans hh', .unmet hkey (hshows hh') (hstate hh') hpermits⟩
      case isFalse hmet =>
          have hpermitted : ∀ {h' p}, Since h₃ h' p → Permitted h' id iavlKeyHex proof :=
            fun hh' => ⟨⟨_, hkey, hshows hh'⟩, s₂, hstate hh', by
              rw [permits_eq_not_any, eq_false_of_ne_true hmet]
              rfl⟩
          apply upholds_bind.mpr
          apply upholds_perform
          · intro h' hh'
            apply hG _ [.note id .check, .note id .conditionMet] (hseen.trans hh')
            apply Course.met (hpermitted hh')
          intro h₄ s₄ hh₄
          refine (upholds_permitted hkey (fun hh' => hshows (hh₄.trans hh'))
            (fun hh' => hpermitted (hh₄.trans hh')) rfl ?_ secret).mono ?_ ?_
          · intro h' p hh' hcourse
            apply hG _ _ (hseen.trans (hh₄.trans hh')) hcourse
          · rintro hash h' s' ⟨p, hh', hreport⟩
            exact ⟨_, hseen.trans (hh₄.trans hh'), hreport⟩
          · rintro e h' s' ⟨p, hh', hfails⟩
            exact ⟨_, hseen.trans (hh₄.trans hh'), hfails⟩

end Submission

/-! ### A request -/

section Post

variable {mnemonic : Option String} {body : Json.Doc}

/-- A request that lacks the number or the key is answered at once. -/
theorem submitProofPost_incomplete (hbody : body ≠ .null) (h : requested body = none) :
  submitProofPost mnemonic (some body)
    = pure (.error 400 "subscription_id and iavl_key_hex are required")
  := by
  cases body with
  | null => contradiction
  | _ => simp only [submitProofPost, h]

/-- Otherwise a proof is submitted, and what is thrown is answered. -/
theorem submitProofPost_requested (hbody : body ≠ .null) {id iavlKeyHex : Json.Doc}
    (h : requested body = some (id, iavlKeyHex)) :
  submitProofPost mnemonic (some body) = (do
    let txHash ← submitProofForSubscription mnemonic id iavlKeyHex
    pure (HttpAnswer.ok txHash)).handle fun e => pure (.error 500 (answerText e))
  := by
  cases body with
  | null => contradiction
  | _ =>
      simp only [submitProofPost, h]
      rfl

/-- What is answered to a request completes its signals. -/
theorem upholds_submitProofPost (hbody : body ≠ .null) (s : State) :
  Upholds apply (fun h' => PostBegun mnemonic (some body) h' (signals h'))
    (fun answer h' _ => PostReports mnemonic body h' (signals h' ++ [.answer answer]))
    (fun _ _ _ => False) (submitProofPost mnemonic (some body)) [] s
  := by
  cases hrequested : requested body with
  | none =>
      rw [submitProofPost_incomplete hbody hrequested]
      exact .incomplete hrequested
  | some request =>
      obtain ⟨id, iavlKeyHex⟩ := request
      rw [submitProofPost_requested hbody hrequested]
      apply upholds_handle.mpr
      apply upholds_bind.mpr
      cases hsecret : truthyMnemonic mnemonic with
      | none =>
          rw [submitProofForSubscription, hsecret]
          exact .readOnly hrequested hsecret
      | some secret =>
          refine (upholds_submitProofForSubscription hsecret ?_).mono ?_ ?_
          · intro h' p hh' hcourse
            rw [hh'.signals rfl]
            exact .course rfl hrequested hsecret hcourse
          · rintro hash h' s' ⟨r, hh', hreport⟩
            show PostReports mnemonic body h' (signals h' ++ _)
            rw [hh'.signals rfl]
            exact .reports hrequested hsecret hreport
          · rintro e h' s' ⟨r, hh', hfails⟩
            show PostReports mnemonic body h' (signals h' ++ _)
            rw [hh'.signals rfl]
            exact .reports hrequested hsecret (.failed hfails)

/-- A request with a body gives its signals, the answer among them, and does not fail. -/
theorem upholds_post (hbody : body ≠ .null) (s : State) :
  Upholds apply (fun h' => PostBegun mnemonic (some body) h' (signals h'))
    (fun _ h' _ => PostReports mnemonic body h' (signals h'))
    (fun _ _ _ => False) (Task.program (.post mnemonic (some body))) [] s
  := by
  apply upholds_bind.mpr
  apply (upholds_submitProofPost hbody s).mono
  · intro answer h' s' hreports
    have hdone : PostReports mnemonic body (h' ++ [.did (.respond answer)])
        (signals (h' ++ [.did (.respond answer)])) := by
      rw [signals_append]
      apply hreports.mono (List.sublist_append_left _ _)
    exact ⟨.reports rfl hdone, hdone⟩
  · exact fun _ _ _ hfalse => hfalse

end Post

theorem program_of_bodyless {mnemonic : Option String} {body : Option Json.Doc} {e : Failure}
    (h : bodyless body = some e) :
  Task.program (.post mnemonic body) = .fail e
  := by
  cases body with
  | none =>
      obtain rfl := Option.some.inj h
      rfl
  | some d =>
      cases d with
      | null =>
          obtain rfl := Option.some.inj h
          rfl
      | _ => cases h

/-- In any run of the event loop, with any other tasks and at any time, a request for a submission
has given the first of its signals, and if it is done, all of them, with the answer. It fails only,
and then at once, if it has no body or the body is `null`. -/
theorem post_reports {clock : ℕ} {tasks : List Task} {h : List (Loop × Happening)} {s : Loop}
    (hruns : Runs clock tasks h s) {i : ℕ} {mnemonic : Option String} {body : Option Json.Doc}
    (hpost : tasks[i]? = some (.post mnemonic body)) :
  PostBegun mnemonic body (taskTrace apply h i) (signals (taskTrace apply h i)) ∧
    (s.tasks[i]? = some (.done ()) → ∃ d, body = some d ∧
      PostReports mnemonic d (taskTrace apply h i) (signals (taskTrace apply h i))) ∧
    ∀ e, s.tasks[i]? = some (.fail e) ↔ bodyless body = some e
  := by
  have hprogram : (programs h)[i]? = some (Task.program (.post mnemonic body)) := by
    rw [hruns.programs, List.getElem?_map, hpost]
    rfl
  obtain ⟨s', q, hq, hafter⟩ := (after_taskTrace hruns.run).2.2 i _ hprogram
  cases hbody : bodyless body with
  | some e =>
      rw [program_of_bodyless hbody] at hafter
      generalize taskTrace apply h i = l at hafter ⊢
      cases hafter
      refine ⟨.waiting, ?_, ?_⟩
      · intro htask
        cases hq.symm.trans htask
      · intro e'
        rw [hq]
        constructor
        · rintro ⟨⟩
          rfl
        · rintro ⟨⟩
          rfl
  | none =>
      obtain ⟨d, rfl, hne⟩ := exists_body hbody
      obtain ⟨hbegun, hdone, hfail⟩ := (upholds_post hne s').after .waiting hafter
      refine ⟨hbegun _ (List.prefix_refl _), ?_, ?_⟩
      · intro htask
        obtain rfl := Option.some.inj (hq.symm.trans htask)
        obtain ⟨-, hreports⟩ := hdone () rfl
        exact ⟨d, rfl, hreports⟩
      · intro e
        refine ⟨fun htask => ?_, nofun⟩
        obtain rfl := Option.some.inj (hq.symm.trans htask)
        obtain ⟨-, hfalse⟩ := hfail e rfl
        cases hfalse

end

/-! ### A sample -/

/-- A request for the subscription 7, which is listed. -/
def sampleBody : Json.Doc :=
  .obj [(Json.str "subscription_id", number 7), (Json.str "iavl_key_hex", .str (Json.str "01"))]

/-- A poll, and when it is done two requests, one with a body and one without. -/
def samplePosts : List Task :=
  [.poll (some "secret"), .post (some "secret") (some sampleBody), .post (some "secret") none]

/-- What happens then. -/
def samplePostTurns : List Happening :=
  (.spawn (@Task.program sampleHost (.poll (some "secret"))) ::
      List.replicate 8 (.resume 0 sampleAnswer))
    ++ (.spawn (@Task.program sampleHost (.post (some "secret") (some sampleBody))) ::
      List.replicate 6 (.resume 1 sampleAnswer))
    ++ [.spawn (@Task.program sampleHost (.post (some "secret") none))]

theorem isSome_samplePostTurns :
  (Machine.exec (step apply) (.initial (.initial 0)) samplePostTurns).isSome = true
  := by
  decide +kernel

/-- The state in the end. -/
def samplePostEnd : Loop :=
  ((Machine.exec (step apply) (.initial (.initial 0)) samplePostTurns).get isSome_samplePostTurns).2

theorem done_samplePostEnd :
  samplePostEnd.tasks[1]? = some (.done ())
  := by
  have hany : (samplePostEnd.tasks[1]?).any isDone = true := by decide +kernel
  generalize samplePostEnd.tasks[1]? = task at hany
  cases task with
  | none => cases hany
  | some q => rw [eq_done_of_isDone hany]

theorem post_reports_sample :
  ∃ h s, @Runs sampleHost 0 samplePosts h s ∧
    @PostReports sampleHost (some "secret") sampleBody (taskTrace apply h 1)
      (signals (taskTrace apply h 1)) ∧
    s.state.events.map (fun e => e.txHash) = [some "01", none, none, some "01", none, none] ∧
    s.tasks[2]? = some (.fail (undefinedProperty "subscription_id"))
  := by
  let _ : Host := sampleHost
  have hruns : Runs 0 samplePosts _ samplePostEnd :=
    runs_of_exec (Option.some_get isSome_samplePostTurns).symm rfl
  have hone : samplePosts[1]? = some (.post (some "secret") (some sampleBody)) := rfl
  have htwo : samplePosts[2]? = some (.post (some "secret") none) := rfl
  have hpost := post_reports hruns hone
  have hbare := post_reports hruns htwo
  obtain ⟨d, hd, hreports⟩ := hpost.2.1 done_samplePostEnd
  obtain rfl := Option.some.inj hd
  refine ⟨_, samplePostEnd, hruns, hreports, ?_, (hbare.2.2 _).mpr rfl⟩
  decide +kernel

end Watcher.Tasks
