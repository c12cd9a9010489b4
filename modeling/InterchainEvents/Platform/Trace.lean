import InterchainEvents.Platform.Transaction

/-!
# What the log of a run says

The entries of a log are genuine: each answer is the one that the entry point gives on the
storage the entry found, and that storage is a reachable one. The entries whose writes were
kept lead from the first storage of the run to the last, each from where the one before it
left off (`leads_history`). And each entry ran in the block of one of the transactions.
-/

namespace Platform

variable {σ Env Call Payload Err : Type}

/-- The storage an entry found. -/
def Event.before : Event σ Env Call Payload Err → σ
  | .execute _ _ before _ => before
  | .reply _ _ _ before _ => before

/-- The environment an entry ran in. -/
def Event.env : Event σ Env Call Payload Err → Env
  | .execute env _ _ _ => env
  | .reply env _ _ _ _ => env

/-! ### Properties of all entries -/

section Entries

variable {P : Record σ Env Call Payload Err → Prop} {h l : List (Record σ Env Call Payload Err)}
  {r : Record σ Env Call Payload Err}

/-- What all entries have, they have with one more. -/
theorem forall_mem_concat (hh : ∀ r ∈ h, P r) (hr : P r) :
  ∀ r' ∈ h ++ [r], P r'
  := by
  intro r' hr'
  rcases List.mem_append.mp hr' with hr' | hr'
  · apply hh r' hr'
  · obtain rfl := List.mem_singleton.mp hr'
    apply hr

theorem forall_mem_of_append (hh : ∀ r ∈ h ++ l, P r) :
  ∀ r ∈ h, P r
  := fun r hr => hh r (List.mem_append_left _ hr)

/-- What does not depend on whether writes are kept, discarding them does not change. -/
theorem forall_mem_append_discard (hP : ∀ r, P r.discard ↔ P r) :
  (∀ r ∈ h ++ l.map Record.discard, P r) ↔ ∀ r ∈ h ++ l, P r
  := by
  simp only [List.mem_append, List.mem_map]
  constructor
  · rintro hh r (hr | hr)
    · apply hh r (.inl hr)
    · apply (hP r).mp (hh r.discard (.inr ⟨r, hr, rfl⟩))
  · rintro hh r (hr | ⟨r', hr', rfl⟩)
    · apply hh r (.inl hr)
    · apply (hP r').mpr (hh r' (.inr hr'))

end Entries

namespace Contract

variable (c : Contract σ Env Call Payload Err)

/-! ### Genuine entries -/

/-- The entry point gives the answer that was logged when it runs on the storage that was
logged. -/
def Genuine : Event σ Env Call Payload Err → Prop
  | .execute env message before answer => (c.execute env message before).1 = answer
  | .reply env id error before answer => (c.reply env id error before).1 = answer

theorem genuineRule :
  c.HistoryRule (fun h _ => ∀ r ∈ h, c.Genuine r.event)
  where
  discard _ hs' := (forall_mem_append_discard fun _ => .rfl).mpr hs'
  refused hs hexec := forall_mem_concat hs (congrArg Prod.fst hexec)
  executed hs hexec := forall_mem_concat hs (congrArg Prod.fst hexec)
  replied _ _ hs₁ hreply := forall_mem_concat hs₁ (congrArg Prod.fst hreply)
  replyRefused _ _ hs₁ hreply := forall_mem_concat hs₁ (congrArg Prod.fst hreply)

variable {c} in
/-- Every entry made by a sequence of transactions is genuine. -/
theorem genuine_of_mem_history {txs : List (Tx σ Env Call Payload Err)} {s : σ}
    {r : Record σ Env Call Payload Err} (hr : r ∈ (c.history txs s).2) :
  c.Genuine r.event
  := by
  have hlog := c.genuineRule.history txs (h := []) (s := s) (by simp)
  apply hlog r hr

/-! ### Entries found reachable storages -/

theorem foundRule (s₀ : σ) :
  c.HistoryRule (fun h s => c.Reachable s₀ s ∧ ∀ r ∈ h, c.Reachable s₀ r.event.before)
  where
  discard := by
    rintro h l s s' ⟨hs, hh⟩ ⟨-, hl⟩
    use hs
    apply (forall_mem_append_discard fun _ => .rfl).mpr hl
  refused := by
    rintro h s env message e s' ⟨hs, hh⟩ hexec
    use hs
    apply forall_mem_concat hh
    apply hs
  executed := by
    rintro h s env message answer s' ⟨hs, hh⟩ hexec
    use .execute hs hexec
    apply forall_mem_concat hh
    apply hs
  replied := by
    rintro h s env message sub s₁ l error s₂ ⟨hs, hh⟩ hexec ⟨hs₁, hh₁⟩ hreply
    use .reply hs hexec hreply
    apply forall_mem_concat hh₁
    apply hs₁
  replyRefused := by
    rintro h s env message sub s₁ l error e s₂ ⟨hs, hh⟩ hexec ⟨hs₁, hh₁⟩ hreply
    use hs₁
    apply forall_mem_concat hh₁
    apply hs₁

variable {c} in
/-- Every entry made by a sequence of transactions found a reachable storage. -/
theorem reachable_before_of_mem_history {txs : List (Tx σ Env Call Payload Err)} {s : σ}
    {r : Record σ Env Call Payload Err} (hr : r ∈ (c.history txs s).2) :
  c.Reachable s r.event.before
  := by
  have hlog := (c.foundRule s).history txs (h := []) ⟨.start, by simp⟩
  apply hlog.2 r hr

end Contract

/-! ### Entries ran in the blocks of the transactions

The environment of a transaction is that of all its entries, so what the entry points keep in
some environments only is kept by runs in these. -/

namespace Contract

variable (c : Contract σ Env Call Payload Err)

theorem env_of_mem_commit {α : Type} {env : Env} {s : σ} {o : Outcome σ Env Call Payload Err α}
    (ho : ∀ r ∈ o.log, r.event.env = env) :
  ∀ r ∈ (o.commit s).log, r.event.env = env
  := by
  intro r hr
  unfold Outcome.commit at hr
  split at hr
  · apply ho r hr
  · obtain ⟨r', hr', rfl⟩ := List.mem_map.mp hr
    apply ho r' hr'

theorem env_of_mem_deliver (env : Env) (message : Call)
    (callback : SubMsg Payload → σ → Outcome σ Env Call Payload Err String)
    (hcallback : ∀ sub s, ∀ r ∈ (callback sub s).log, r.event.env = env) (s : σ) :
  ∀ r ∈ (c.deliver env message callback s).log, r.event.env = env
  := by
  intro r hr
  unfold deliver at hr
  split at hr
  case h_1 =>
      obtain rfl := List.mem_singleton.mp hr
      rfl
  case h_2 =>
      obtain rfl := List.mem_singleton.mp hr
      rfl
  case h_3 sub s₁ _ =>
      have ho := env_of_mem_commit (s := s₁) (hcallback sub s₁)
      dsimp only at hr
      split at hr
      case h_1 =>
          rcases List.mem_cons.mp hr with rfl | hr
          · rfl
          · apply ho r hr
      case h_2 =>
          split at hr
          case h_1 =>
              rcases List.mem_append.mp hr with hr | hr
              · rcases List.mem_cons.mp hr with rfl | hr
                · rfl
                · apply ho r hr
              · obtain rfl := List.mem_singleton.mp hr
                rfl
          case h_2 =>
              obtain ⟨r', hr', rfl⟩ := List.mem_map.mp hr
              rcases List.mem_append.mp hr' with hr' | hr'
              · rcases List.mem_cons.mp hr' with rfl | hr'
                · rfl
                · apply ho r' hr'
              · obtain rfl := List.mem_singleton.mp hr'
                rfl

theorem env_of_mem_run (env : Env) (script : Script σ Call Payload Err) :
  ∀ s, ∀ r ∈ (c.run env script s).log, r.event.env = env
  := by
  induction script with
  | succeed =>
      intro s r hr
      cases hr
  | fail error =>
      intro s r hr
      cases hr
  | query next ih =>
      intro s
      apply ih s
  | call message callback next ihcallback ihnext =>
      intro s r hr
      rcases List.mem_append.mp hr with hr | hr
      · apply c.env_of_mem_deliver env message _ ihcallback s r hr
      · apply ihnext _ _ r hr
  | attempt body next ihbody ihnext =>
      intro s r hr
      rcases List.mem_append.mp hr with hr | hr
      · apply env_of_mem_commit (ihbody s) r hr
      · apply ihnext _ _ r hr

theorem env_of_mem_transact {tx : Tx σ Env Call Payload Err} {s : σ}
    {r : Record σ Env Call Payload Err} (hr : r ∈ (c.transact tx s).log) :
  r.event.env = tx.env
  := env_of_mem_commit (c.env_of_mem_run tx.env tx.script s) r hr

/-- Every entry made by a sequence of transactions ran in the block of one of them. -/
theorem env_of_mem_history {txs : List (Tx σ Env Call Payload Err)} {s : σ}
    {r : Record σ Env Call Payload Err} (hr : r ∈ (c.history txs s).2) :
  ∃ tx ∈ txs, r.event.env = tx.env
  := by
  induction txs generalizing s with
  | nil => cases hr
  | cons tx txs ih =>
      rcases List.mem_append.mp hr with hr | hr
      · use tx, List.mem_cons_self
        apply c.env_of_mem_transact hr
      · obtain ⟨tx', htx', henv⟩ := ih hr
        use tx', List.mem_cons_of_mem _ htx'

/-- `I` is kept by the entry points in the environments `E`. -/
structure InvariantRuleIn (E : Env → Prop) (I : σ → Prop) : Prop where
  execute : ∀ {s env message r s'}, E env → I s → c.execute env message s = (.ok r, s') → I s'
  reply : ∀ {s env message sub s₁ error s₂}, E env → I s →
    c.execute env message s = (.ok (some sub), s₁) → I s₁ →
    c.reply env sub.id error s₁ = (.ok (), s₂) → I s₂

variable {c} {E : Env → Prop} {I : σ → Prop}

/-- As long as all entries were in these environments, all of them found `I`, and it holds. -/
theorem InvariantRuleIn.historyRule (rule : c.InvariantRuleIn E I) :
  c.HistoryRule
    (fun h s => (∀ r ∈ h, E r.event.env) → I s ∧ ∀ r ∈ h, I r.event.before)
  where
  discard := by
    intro h l s s' hs hs' hE
    rw [forall_mem_append_discard fun _ => .rfl] at hE
    use (hs (forall_mem_of_append hE)).1
    apply (forall_mem_append_discard fun _ => .rfl).mpr (hs' hE).2
  refused := by
    intro h s env message e s' hs hexec hE
    obtain ⟨hI, hh⟩ := hs (forall_mem_of_append hE)
    use hI
    apply forall_mem_concat hh
    apply hI
  executed := by
    intro h s env message answer s' hs hexec hE
    obtain ⟨hI, hh⟩ := hs (forall_mem_of_append hE)
    use rule.execute (hE _ List.mem_concat_self) hI hexec
    apply forall_mem_concat hh
    apply hI
  replied := by
    intro h s env message sub s₁ l error s₂ hs hexec hs₁ hreply hE
    have hE₁ := forall_mem_of_append hE
    obtain ⟨hI, -⟩ := hs (forall_mem_of_append hE₁)
    obtain ⟨hI₁, hh₁⟩ := hs₁ hE₁
    use rule.reply (hE _ List.mem_concat_self) hI hexec hI₁ hreply
    apply forall_mem_concat hh₁
    apply hI₁
  replyRefused := by
    intro h s env message sub s₁ l error e s₂ hs hexec hs₁ hreply hE
    obtain ⟨hI₁, hh₁⟩ := hs₁ (forall_mem_of_append hE)
    use hI₁
    apply forall_mem_concat hh₁
    apply hI₁

/-- What the entry points keep in the environments of a transaction, every entry of it finds. -/
theorem InvariantRuleIn.transact (rule : c.InvariantRuleIn E I) {tx : Tx σ Env Call Payload Err}
    (htx : E tx.env) {s : σ} (hs : I s) :
  I (c.transact tx s).state ∧ ∀ r ∈ (c.transact tx s).log, I r.event.before
  := by
  have hinit : (∀ r ∈ ([] : List (Record σ Env Call Payload Err)), E r.event.env) →
      I s ∧ ∀ r ∈ ([] : List (Record σ Env Call Payload Err)), I r.event.before := by
    intro _
    use hs
    simp
  have hrun := rule.historyRule.commit hinit
    (rule.historyRule.run tx.env tx.script hinit)
  apply hrun
  intro r hr
  rw [c.env_of_mem_transact hr]
  apply htx

/-- What the entry points keep in the environments of a run, every entry of it finds. -/
theorem InvariantRuleIn.history (rule : c.InvariantRuleIn E I)
    {txs : List (Tx σ Env Call Payload Err)} (htxs : ∀ tx ∈ txs, E tx.env) {s : σ} (hs : I s) :
  I (c.history txs s).1 ∧ ∀ r ∈ (c.history txs s).2, I r.event.before
  := by
  induction txs generalizing s with
  | nil =>
      use hs
      intro r hr
      cases hr
  | cons tx txs ih =>
      obtain ⟨hstate, hlog⟩ := rule.transact (htxs tx List.mem_cons_self) hs
      obtain ⟨hstate', hlog'⟩ := ih (fun tx' h => htxs tx' (List.mem_cons_of_mem _ h)) hstate
      use hstate'
      intro r hr
      rcases List.mem_append.mp hr with hr | hr
      · apply hlog r hr
      · apply hlog' r hr

end Contract

/-! ### Kept entries -/

/-- The entries of a history whose writes were kept, by steps of a relation: each found the
storage that the one before it left. -/
inductive Leads (R : σ → σ → Prop) (s₀ : σ) : List (Record σ Env Call Payload Err) → σ → Prop
  | start : Leads R s₀ [] s₀
  | discarded {h s r} : Leads R s₀ h s → r.kept = false → Leads R s₀ (h ++ [r]) s
  | kept {h s r s'} : Leads R s₀ h s → r.kept = true → r.event.before = s → R s s' →
      Leads R s₀ (h ++ [r]) s'

theorem Leads.append_discarded {R : σ → σ → Prop} {s₀ s : σ}
    {h : List (Record σ Env Call Payload Err)} (hs : Leads R s₀ h s)
    (l : List (Record σ Env Call Payload Err)) :
  Leads R s₀ (h ++ l.map Record.discard) s
  := by
  induction l generalizing h with
  | nil => simpa using hs
  | cons r l ih =>
      rw [List.map_cons, List.append_cons]
      apply ih (.discarded hs rfl)

/-- Along a history, what every step keeps is kept. -/
theorem Leads.invariant {R : σ → σ → Prop} {s₀ s : σ} {h : List (Record σ Env Call Payload Err)}
    (hs : Leads R s₀ h s) {I : σ → Prop} (hI : ∀ s s', R s s' → I s → I s') (hs₀ : I s₀) :
  I s
  := by
  induction hs with
  | start => apply hs₀
  | discarded _ _ ih => apply ih
  | kept _ _ _ hstep ih => apply hI _ _ hstep ih

namespace Contract

variable {c : Contract σ Env Call Payload Err}

/-- The successful entry points make steps of the relation, from storages that have an
invariant. -/
structure StepRule (c : Contract σ Env Call Payload Err) (I : σ → Prop) (R : σ → σ → Prop) :
    Prop where
  invariant : c.InvariantRule I
  execute : ∀ {s env message r s'}, I s → c.execute env message s = (.ok r, s') → R s s'
  reply : ∀ {s env message sub s₁ error s₂}, I s →
    c.execute env message s = (.ok (some sub), s₁) → I s₁ →
    c.reply env sub.id error s₁ = (.ok (), s₂) → R s₁ s₂

theorem StepRule.historyRule {I : σ → Prop} {R : σ → σ → Prop} (rule : c.StepRule I R) (s₀ : σ) :
  c.HistoryRule (fun h s => I s ∧ Leads R s₀ h s)
  where
  discard := by
    rintro h l s s' ⟨hI, hs⟩ -
    exact ⟨hI, hs.append_discarded l⟩
  refused := by
    rintro h s env message e s' ⟨hI, hs⟩ hexec
    exact ⟨hI, .discarded hs rfl⟩
  executed := by
    rintro h s env message r s' ⟨hI, hs⟩ hexec
    use rule.invariant.execute hI hexec
    apply Leads.kept hs rfl rfl (rule.execute hI hexec)
  replied := by
    rintro h s env message sub s₁ l error s₂ ⟨hI, -⟩ hexec ⟨hI₁, hs₁⟩ hreply
    use rule.invariant.reply hI hexec hI₁ hreply
    apply Leads.kept hs₁ rfl rfl (rule.reply hI hexec hI₁ hreply)
  replyRefused := by
    rintro h s env message sub s₁ l error e s₂ - hexec ⟨hI₁, hs₁⟩ hreply
    exact ⟨hI₁, .discarded hs₁ rfl⟩

/-- **The kept entries explain a run.** They lead from its first storage to its last. -/
theorem leads_history {I : σ → Prop} {R : σ → σ → Prop} (rule : c.StepRule I R)
    (txs : List (Tx σ Env Call Payload Err)) {s : σ} (hs : I s) :
  Leads R s (c.history txs s).2 (c.history txs s).1
  := ((rule.historyRule s).history txs (h := []) ⟨hs, .start⟩).2

end Contract

end Platform
