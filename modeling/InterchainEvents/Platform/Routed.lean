import InterchainEvents.Platform.Transaction

/-!
# Messages to contracts that are known

A `Script` lets the message a contract asks for lead to anything. Where the contract that some of
the messages go to is known, so is what they lead to: `route` says which messages these are and
what becomes of them, and `Script.Routed` that a script keeps to this. `RoutedRule` is the
induction principle for such runs. It differs from `HistoryRule` in that a call whose message is
routed is one step, so that what holds need not hold between the call and the message.
-/

namespace Platform

variable {σ Env Call Payload Err : Type}

/-! ### Routed scripts -/

section Scripts

variable (route : SubMsg Payload → Option (Script σ Call Payload Err)) (allowed : Call → Prop)

/-- All calls a script makes are allowed, and the messages they ask for go where they are
routed. -/
def Script.Routed : Script σ Call Payload Err → Prop
  | .succeed => True
  | .fail _ => True
  | .query next => ∀ s, Routed (next s)
  | .call message callback next =>
      allowed message ∧
        (∀ sub script, route sub = some script → callback sub = script) ∧
        (∀ sub, route sub = none → Routed (callback sub)) ∧ ∀ answer, Routed (next answer)
  | .attempt body next => Routed body ∧ ∀ answer, Routed (next answer)

end Scripts

namespace Contract

variable (c : Contract σ Env Call Payload Err)

/-- `J h s` is kept by every way the history `h` and the storage `s` can go on by allowed calls:
those of `HistoryRule`, where the message a call asks for is not routed, and a whole call where it
is. -/
structure RoutedRule (route : SubMsg Payload → Option (Script σ Call Payload Err))
    (allowed : Call → Prop) (J : List (Record σ Env Call Payload Err) → σ → Prop) : Prop where
  discard : ∀ {h l s s'}, J h s → J (h ++ l) s' → J (h ++ l.map Record.discard) s
  refused : ∀ {h s env message e s'}, J h s → c.execute env message s = (.error e, s') →
    J (h ++ [⟨.execute env message s (.error e), false⟩]) s
  executed : ∀ {h s env message s'}, J h s → allowed message →
    c.execute env message s = (.ok none, s') →
    J (h ++ [⟨.execute env message s (.ok none), true⟩]) s'
  asked : ∀ {h s env message sub s'}, J h s → allowed message →
    c.execute env message s = (.ok (some sub), s') → route sub = none →
    J (h ++ [⟨.execute env message s (.ok (some sub)), true⟩]) s'
  replied : ∀ {h s env message sub s₁ l error s₂}, J h s → allowed message →
    c.execute env message s = (.ok (some sub), s₁) → route sub = none →
    J (h ++ ⟨.execute env message s (.ok (some sub)), true⟩ :: l) s₁ →
    c.reply env sub.id error s₁ = (.ok (), s₂) →
    J (h ++ ⟨.execute env message s (.ok (some sub)), true⟩ :: l
      ++ [⟨.reply env sub.id error s₁ (.ok ()), true⟩]) s₂
  replyRefused : ∀ {h s env message sub s₁ l error e s₂}, J h s → allowed message →
    c.execute env message s = (.ok (some sub), s₁) → route sub = none →
    J (h ++ ⟨.execute env message s (.ok (some sub)), true⟩ :: l) s₁ →
    c.reply env sub.id error s₁ = (.error e, s₂) →
    J (h ++ ⟨.execute env message s (.ok (some sub)), true⟩ :: l
      ++ [⟨.reply env sub.id error s₁ (.error e), false⟩]) s₁
  routed : ∀ {h s env message sub s₁ script callback}, J h s → allowed message →
    c.execute env message s = (.ok (some sub), s₁) → route sub = some script →
    callback sub = script →
    J (h ++ (c.send env message callback s).log) (c.send env message callback s).state

namespace RoutedRule

variable {c} {route : SubMsg Payload → Option (Script σ Call Payload Err)} {allowed : Call → Prop}
  {J : List (Record σ Env Call Payload Err) → σ → Prop}

theorem commit {α : Type} (rule : c.RoutedRule route allowed J) {h s}
    {o : Outcome σ Env Call Payload Err α} (hs : J h s) (ho : J (h ++ o.log) o.state) :
  J (h ++ (o.commit s).log) (o.commit s).state
  := by
  unfold Outcome.commit
  split
  · apply ho
  · apply rule.discard hs ho

/-- A call whose message is not routed keeps what the run of the message keeps. -/
theorem unrouted (rule : c.RoutedRule route allowed J) {env : Env} {message : Call}
    {callback : SubMsg Payload → Script σ Call Payload Err} {sub : SubMsg Payload} {h s s₁}
    (hs : J h s) (hmessage : allowed message)
    (hexec : c.execute env message s = (.ok (some sub), s₁)) (hroute : route sub = none)
    (hcallback : ∀ {h s}, J h s →
      J (h ++ (c.run env (callback sub) s).log) (c.run env (callback sub) s).state) :
  J (h ++ (c.send env message callback s).log) (c.send env message callback s).state
  := by
  have hs₁ := rule.asked hs hmessage hexec hroute
  have ho := rule.commit hs₁ (hcallback hs₁)
  rw [List.append_assoc] at ho
  simp only [Contract.send, Contract.deliver, hexec]
  split
  case h_1 => apply ho
  case h_2 error herror =>
      -- the message failed, so its commit left `s₁`
      have hstate : ((c.run env (callback sub) s₁).commit s₁).state = s₁ := by
        unfold Outcome.commit at herror ⊢
        split at herror
        · simp_all
        · simp_all
      rw [hstate] at ho ⊢
      split
      case h_1 s₂ hreply =>
          have := rule.replied hs hmessage hexec hroute ho hreply
          rwa [List.append_assoc] at this
      case h_2 e s₂ hreply =>
          have := rule.replyRefused hs hmessage hexec hroute ho hreply
          rw [List.append_assoc] at this
          apply rule.discard hs this

/-- What the steps keep, a routed script keeps. -/
theorem run (rule : c.RoutedRule route allowed J) (env : Env)
    (script : Script σ Call Payload Err) :
  script.Routed route allowed →
    ∀ {h s}, J h s → J (h ++ (c.run env script s).log) (c.run env script s).state
  := by
  induction script with
  | succeed =>
      intro _ h s hs
      simpa [Contract.run] using hs
  | fail error =>
      intro _ h s hs
      simpa [Contract.run] using hs
  | query next ih =>
      intro hscript h s hs
      apply ih s (hscript s) hs
  | call message callback next ihcallback ihnext =>
      rintro ⟨hmessage, hrouted, hunrouted, hnext⟩ h s hs
      have hsend : J (h ++ (c.send env message callback s).log)
          (c.send env message callback s).state := by
        cases hexec : c.execute env message s with
        | mk answer s₁ =>
            cases answer with
            | error e => simpa [Contract.send, Contract.deliver, hexec] using rule.refused hs hexec
            | ok r =>
                cases r with
                | none =>
                    simpa [Contract.send, Contract.deliver, hexec]
                      using rule.executed hs hmessage hexec
                | some sub =>
                    cases hroute : route sub with
                    | none =>
                        apply rule.unrouted hs hmessage hexec hroute
                        intro h' s' hs'
                        apply ihcallback sub (hunrouted sub hroute) hs'
                    | some script =>
                        apply rule.routed hs hmessage hexec hroute (hrouted sub script hroute)
      simp only [Contract.run]
      rw [← List.append_assoc]
      apply ihnext _ (hnext _) hsend
  | attempt body next ihbody ihnext =>
      rintro ⟨hbody, hnext⟩ h s hs
      simp only [Contract.run]
      rw [← List.append_assoc]
      apply ihnext _ (hnext _)
      apply rule.commit hs (ihbody hbody hs)

/-- What the steps keep, a sequence of routed transactions keeps. -/
theorem history (rule : c.RoutedRule route allowed J) {txs : List (Tx σ Env Call Payload Err)}
    (htxs : ∀ tx ∈ txs, tx.script.Routed route allowed) :
  ∀ {h s}, J h s → J (h ++ (c.history txs s).2) (c.history txs s).1
  := by
  induction txs with
  | nil =>
      intro h s hs
      simpa [Contract.history] using hs
  | cons tx txs ih =>
      intro h s hs
      simp only [Contract.history]
      rw [← List.append_assoc]
      apply ih fun tx' htx' => htxs tx' (List.mem_cons_of_mem _ htx')
      apply rule.commit hs (rule.run tx.env tx.script (htxs tx List.mem_cons_self) hs)

end RoutedRule

end Contract

end Platform
