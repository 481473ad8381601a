import BlinkLnurl.Server.ModeMachine

/-!
# What the routes hold when they write modes and names

The second outline of the handlers. A mode request is written with a timestamp
at most 30 s ahead of the clock, so no anchor runs further ahead; and a route
that gives a pubkey a name has read the mode of that pubkey and found it not to
be anon.
-/

namespace BlinkLnurl

open Conc Rel AccountStore

/-- The pubkey that a statement of its user gives a name to. -/
def AccountOp.receiver : AccountOp → Option String
  | .upsertSparkRegistration registration => some registration.pubkey
  | .transferIdentifier transfer => some transfer.destinationSparkPubkey
  | _ => none

/-- Thread `i` has read the mode of the pubkey and found it not to be anon. -/
def FoundNotAnon (i : Nat) (pubkey : String) (h : History) : Prop :=
  ∃ record, ⟨i, .account (.getSparkAccountMode pubkey), .ok record⟩ ∈ h.callsOf i ∧
    record.bind SparkAccountMode.mode ≠ some .anon

/-- The timestamp is at most 30 s ahead of the clock. -/
def InTime (timestamp : Int) (h : History) : Prop :=
  timestamp ≤ h.state.clock.secs + modeMaxFutureSkewSecs

/-- What holds when thread `i` runs an account operation. -/
structure MayWriteMode (i : Nat) (h : History) (op : AccountOp) : Prop where
  byPubkey : op.ByPubkey
  inTime : ∀ update, op = .updateSparkMode update → InTime update.clientTimestamp h
  found : ∀ pubkey, op.receiver = some pubkey → FoundNotAnon i pubkey h

structure ModeInv (h : History) : Prop where
  inv : RepInv h.state.accounts
  anchors : ∀ pubkey t, h.state.anchor pubkey = some t → InTime t h

def modeContract : Contract Request Call Reply World where
  inv := ModeInv
  rely i h h' := h.state.clock.secs ≤ h'.state.clock.secs ∧ h'.callsOf i = h.callsOf i
  guard i _ h c := ∀ op, c = .account op → MayWriteMode i h op

/-- Only an accepted request moves an anchor. -/
theorem ModeChange.anchor {pubkey : String} {old new : Option SparkAccountMode} {ev : CallEvent}
    (change : ModeChange pubkey old new ev) {t : Int}
    (ht : new.bind SparkAccountMode.modeLastTimestamp = some t) :
    old.bind SparkAccountMode.modeLastTimestamp = some t ∨
      ∃ update, acceptedMode ev = some update ∧ t = update.clientTimestamp := by
  cases change with
  | accepts update record now haccept _ _ _ _ hnew =>
      rw [hnew] at ht
      exact Or.inr ⟨update, haccept, (Option.some.inj ht).symm⟩
  | refuses _ _ _ _ _ _ hnew =>
      rw [hnew] at ht
      exact Or.inl ht
  | fills record now _ _ _ hold _ hnew =>
      rw [hnew] at ht
      rw [hold]
      exact Or.inl ht
  | refreshes record now country _ _ _ hold _ hnew =>
      rw [hnew] at ht
      rw [hold]
      exact Or.inl ht
  | creates id _ _ _ _ hnew =>
      rw [hnew] at ht
      exact nomatch ht
  | keeps _ _ _ hnew =>
      rw [hnew] at ht
      exact Or.inl ht

theorem call_of_acceptedMode {ev : CallEvent} {update : SparkModeUpdate}
    (h : acceptedMode ev = some update) : ev.call = .account (.updateSparkMode update) := by
  unfold acceptedMode at h
  split at h
  · rw [Option.some.inj h]
  · exact nomatch h

section Contract

variable {state : State} {i : Nat} {q : Request}

theorem modeContract_lawful : modeContract.Lawful semantics always where
  refl := fun _ _ => ⟨le_refl _, rfl⟩
  trans := fun h₁ h₂ => ⟨h₁.1.trans h₂.1, h₂.2.trans h₁.2⟩
  call := fun {i q h c ch r s'} inv hguard hexec _ => by
    refine ⟨exec_repInv inv.inv (fun op hop => (hguard op hop).byPubkey) hexec, ?_⟩
    intro pubkey t ht
    show t ≤ s'.clock.secs + modeMaxFutureSkewSecs
    rw [exec_clock hexec]
    have change : ModeChange pubkey _ _ ⟨i, c, r⟩ :=
      exec_mode inv.inv (fun op hop => (hguard op hop).byPubkey) hexec pubkey
    rcases change.anchor ht with hold | ⟨update, haccept, rfl⟩
    · exact inv.anchors pubkey t hold
    · exact (hguard _ (call_of_acceptedMode haccept)).inTime update rfl
  tick := fun {h t s'} inv htick => by
    obtain ⟨haccounts, _, hclock⟩ := tick_cases htick
    refine ⟨?_, fun pubkey anchor hanchor => ?_⟩
    · show RepInv s'.accounts
      rw [haccounts]
      exact inv.inv
    · have hold : h.state.anchor pubkey = some anchor := by
        rw [← hanchor]
        unfold World.anchor
        rw [haccounts]
      have hle : anchor ≤ h.state.clock.secs + modeMaxFutureSkewSecs :=
        inv.anchors pubkey anchor hold
      show anchor ≤ s'.clock.secs + modeMaxFutureSkewSecs
      omega
  ticks := fun _ htick => ⟨(tick_cases htick).2.2, rfl⟩
  others := fun _ _ hexec _ hne =>
    ⟨by rw [Hist.push_state, exec_clock hexec], Hist.callsOf_push_ne hne⟩

/-! ## Carrying facts -/

/-- A call that gives nobody a name by a statement and declares no mode. -/
def Call.IsIncidental : Call → Prop
  | .account (.upsertSparkRegistration _) => False
  | .account (.transferIdentifier _) => False
  | .account (.updateSparkMode _) => False
  | _ => True

theorem mayWriteMode_of_incidental {h : History} {op : AccountOp}
    (hop : (Call.account op).IsIncidental) : MayWriteMode i h op := by
  cases op with
  | upsertSparkRegistration => exact absurd hop id
  | transferIdentifier => exact absurd hop id
  | updateSparkMode => exact absurd hop id
  | _ => exact ⟨trivial, fun _ h => (nomatch h), fun _ h => (nomatch h)⟩

theorem incidental_carries {I : History → Prop}
    (hrely : ∀ {h h'}, modeContract.rely i h h' → I h → I h')
    (hpush : ∀ {h : History} {c r w}, w.clock = h.state.clock → I h → I (h.push ⟨i, c, r⟩ w)) :
    modeContract.Carries semantics always i q Call.IsIncidental I where
  rely := hrely
  guard := fun _ hc _ hop => mayWriteMode_of_incidental (hop ▸ hc)
  call := fun _ _ hexec _ hI => hpush (exec_clock hexec) hI

/-- Nothing to carry. -/
theorem carries_nothing :
    modeContract.Carries semantics always i q Call.IsIncidental fun _ => True :=
  incidental_carries (fun _ _ => trivial) fun _ _ => trivial

theorem FoundNotAnon.rely {pubkey : String} {h h' : History} (hfound : FoundNotAnon i pubkey h)
    (hrely : modeContract.rely i h h') : FoundNotAnon i pubkey h' := by
  unfold FoundNotAnon
  rw [hrely.2]
  exact hfound

theorem InTime.rely {timestamp : Int} {h h' : History} (hin : InTime timestamp h)
    (hrely : modeContract.rely i h h') : InTime timestamp h' := by
  have hclock : h.state.clock.secs ≤ h'.state.clock.secs := hrely.1
  unfold InTime at hin ⊢
  omega

theorem carries_found {pubkey : String} :
    modeContract.Carries semantics always i q Call.IsIncidental (FoundNotAnon i pubkey) := by
  refine incidental_carries (fun hrely hfound => hfound.rely hrely) ?_
  intro h c r w _ hfound
  obtain ⟨record, hmem, hmode⟩ := hfound
  refine ⟨record, ?_, hmode⟩
  rw [Hist.callsOf_push_self]
  exact List.mem_append_left _ hmem

theorem carries_inTime {timestamp : Int} :
    modeContract.Carries semantics always i q Call.IsIncidental (InTime timestamp) := by
  refine incidental_carries (fun hrely hin => hin.rely hrely) ?_
  intro h c r w hclock hin
  show timestamp ≤ w.clock.secs + modeMaxFutureSkewSecs
  rw [hclock]
  exact hin

/-- What is shown of a route: it keeps to the contract. -/
abbrev KeepsModeContract (i : Nat) (q : Request) {ε α : Type} (p : Prog Call Reply ε α)
    (h : History) : Prop :=
  modeContract.wp semantics always i q p (fun _ _ => True) h

variable {ε α β : Type} {h : History}

theorem incidental {p : Prog Call Reply ε α} (hp : p.Calls Call.IsIncidental) :
    KeepsModeContract i q p h :=
  carries_nothing.last hp (fun _ => trivial) trivial

theorem incidental_bind {p : Prog Call Reply ε α} {f : α → Prog Call Reply ε β}
    (hp : p.Calls Call.IsIncidental) (hf : ∀ a h, KeepsModeContract i q (f a) h) :
    KeepsModeContract i q (p.bind f) h :=
  carries_nothing.bind hp (fun _ => trivial) trivial fun a h _ => hf a h

/-- A write that the thread may make, then the rest. -/
theorem mayWriteMode_bind {op : AccountOp} {e : RepositoryError → ApiError}
    {f : op.Result → Handler β}
    (hmay : ∀ h', modeContract.rely i h h' → MayWriteMode i h' op)
    (hf : ∀ a h, KeepsModeContract i q (f a) h) :
    KeepsModeContract i q (((Store.account op).mapError e).bind f) h := by
  refine Contract.wp_bind.mpr (Contract.wp_mapError.mpr (Contract.wp_call.mpr ?_))
  intro h₁ hrely _
  refine ⟨fun op' hop => ?_, ?_⟩
  · obtain rfl := Call.account.inj hop
    exact hmay h₁ hrely
  · intro ch r s' _ _ _
    refine Contract.wp_ofExcept.mpr ?_
    cases r with
    | ok a => exact hf a _
    | error err => exact trivial

/-- The mode check: afterwards the mode has been found not to be anon. -/
theorem storedMode_bind {pubkey : String} {f : Unit → Handler β}
    (hf : ∀ h, FoundNotAnon i pubkey h → KeepsModeContract i q (f ()) h) :
    KeepsModeContract i q ((storedAccountMode pubkey).bind fun storedMode =>
      (Prog.require (storedMode ≠ some .anon) enhancedModeRequired).bind f) h := by
  refine Contract.wp_bind.mpr ?_
  simp only [storedAccountMode, Prog.bind_eq, Prog.pure_eq]
  refine Contract.wp_bind.mpr (Contract.wp_mapError.mpr (Contract.wp_call.mpr ?_))
  intro h₁ hrely _
  refine ⟨fun op hop => ?_, ?_⟩
  · obtain rfl := Call.account.inj hop
    exact mayWriteMode_of_incidental trivial
  · intro ch r s' _ _ _
    refine Contract.wp_ofExcept.mpr ?_
    cases r with
    | error err => exact trivial
    | ok record =>
        refine Contract.wp_ret.mpr (Contract.wp_require_bind trivial fun hmode => hf _ ?_)
        refine ⟨record, ?_, hmode⟩
        rw [Hist.callsOf_push_self]
        exact List.mem_append_right _ (List.mem_singleton_self _)

/-! ## The routes -/

theorem register_keepsModes {host : Host} {pubkey : String} {payload : RegisterLnurlPayRequest} :
    KeepsModeContract i q (register state host pubkey payload) h := by
  simp only [register, Prog.bind_eq, Prog.pure_eq]
  refine incidental_bind Prog.calls_ofExcept fun _ h => ?_
  refine incidental_bind Prog.calls_ofExcept fun username h => ?_
  refine incidental_bind Prog.calls_ofExcept fun _ h => ?_
  refine incidental_bind (calls_sanitizeDomain fun _ => trivial) fun domain h => ?_
  refine incidental_bind Prog.calls_ofExcept fun signed h => ?_
  refine incidental_bind (calls_checkTimestamp fun _ => trivial) fun _ h => ?_
  refine incidental_bind Prog.calls_ofExcept fun authorization h => ?_
  refine storedMode_bind fun h found => ?_
  refine mayWriteMode_bind (fun h' hrely => ⟨rfl, fun _ h => (by cases h), ?_⟩) fun _ _ => ?_
  · intro pk hpk
    obtain rfl := Option.some.inj hpk
    exact found.rely hrely
  · exact Contract.wp_ret.mpr trivial

theorem transfer_keepsModes {host : Host} {toPubkey : String} {payload : TransferLnurlPayRequest} :
    KeepsModeContract i q (transfer state host toPubkey payload) h := by
  simp only [transfer, Prog.bind_eq, Prog.pure_eq]
  refine incidental_bind Prog.calls_ofExcept fun _ h => ?_
  refine incidental_bind Prog.calls_ofExcept fun username h => ?_
  refine incidental_bind Prog.calls_ofExcept fun _ h => ?_
  refine incidental_bind (calls_sanitizeDomain fun _ => trivial) fun domain h => ?_
  refine incidental_bind Prog.calls_ofExcept fun source h => ?_
  refine incidental_bind Prog.calls_ofExcept fun target h => ?_
  refine incidental_bind Prog.calls_ofExcept fun timestamp h => ?_
  refine incidental_bind (Prog.calls_mapError.mpr (calls_checkTimestamp fun _ => trivial))
    fun _ h => ?_
  refine incidental_bind Prog.calls_ofExcept fun authorization h => ?_
  refine incidental_bind Prog.calls_ofExcept fun _ h => ?_
  refine incidental_bind Prog.calls_require fun _ h => ?_
  refine storedMode_bind fun h found => ?_
  -- the name is looked up after the mode was read
  have lookup : ((Store.account (.resolveRecipientByIdentifier domain username)).mapError
      sparkTransferError).Calls Call.IsIncidental := Prog.calls_mapError.mpr (calls_account trivial)
  refine carries_found.bind lookup (fun _ => trivial) found fun resolved h found => ?_
  refine carries_found.bind Prog.calls_ofExcept (fun _ => trivial) found fun recipient h found => ?_
  refine carries_found.bind Prog.calls_require (fun _ => trivial) found fun _ h found => ?_
  refine mayWriteMode_bind (fun h' hrely => ⟨trivial, fun _ h => (by cases h), ?_⟩) fun _ _ => ?_
  · intro pk hpk
    obtain rfl := Option.some.inj hpk
    exact found.rely hrely
  · exact incidental (Prog.calls_bind (Prog.calls_attempt.mpr (calls_account trivial))
      fun _ => Prog.calls_ret _)

theorem upsertSparkMode_keepsModes {update : SparkModeUpdate}
    (hin : InTime update.clientTimestamp h) :
    KeepsModeContract i q (upsertSparkMode update) h := by
  simp only [upsertSparkMode, Prog.bind_eq, Prog.pure_eq]
  refine carries_inTime.bind ?_ (fun _ => trivial) hin fun _ h hin => ?_
  · simp only [ensureSparkAccount, Prog.bind_eq, Prog.pure_eq]
    refine Prog.calls_bind (calls_account trivial) fun stored => ?_
    cases stored with
    | none => exact calls_account trivial
    | some _ => exact Prog.calls_ret _
  · refine Contract.wp_bind.mpr (Contract.wp_call.mpr ?_)
    intro h₁ hrely _
    refine ⟨fun op hop => ?_, ?_⟩
    · obtain rfl := Call.account.inj hop
      refine ⟨trivial, fun update' hupdate => ?_, fun _ h => (by cases h)⟩
      rw [← AccountOp.updateSparkMode.inj hupdate]
      exact hin.rely hrely
    · intro ch r s' _ _ _
      refine Contract.wp_ofExcept.mpr ?_
      cases r with
      | error err => exact trivial
      | ok updated =>
          cases updated with
          | true => exact Contract.wp_ret.mpr trivial
          | false =>
              exact incidental
                (Prog.calls_bind (calls_account trivial) fun _ => Prog.calls_ofExcept)

/-- `now()` is the clock when it was read. -/
theorem now_bind {f : Int → Handler β}
    (hf : ∀ now (h : History), now ≤ h.state.clock.secs → KeepsModeContract i q (f now) h) :
    KeepsModeContract i q (now.bind f) h := by
  simp only [now, env, Prog.bind_eq, Prog.pure_eq]
  refine Contract.wp_bind.mpr (Contract.wp_bind.mpr (Contract.wp_call.mpr ?_))
  intro h₁ _ _
  refine ⟨fun op hop => (by cases hop), ?_⟩
  intro ch reading s' hexec _ _
  have hread : exec (.env .nowU64) ch h₁.state = some (reading, s') := hexec
  obtain ⟨rfl, hanswer⟩ := exec_env hread
  obtain rfl := Option.some.inj hanswer
  exact Contract.wp_ret.mpr (Contract.wp_ret.mpr (hf _ _ (le_refl _)))

theorem setMode_keepsModes {host : Host} {pubkey : String} {payload : SetLnurlPayModeRequest} :
    KeepsModeContract i q (setMode state host pubkey payload) h := by
  simp only [setMode, Prog.bind_eq, Prog.pure_eq]
  refine incidental_bind Prog.calls_ofExcept fun _ h => ?_
  refine incidental_bind Prog.calls_ofExcept fun mode h => ?_
  refine incidental_bind (calls_env trivial) fun _ h => ?_
  refine incidental_bind Prog.calls_require fun _ h => ?_
  refine incidental_bind (calls_sanitizeDomain fun _ => trivial) fun domain h => ?_
  refine incidental_bind Prog.calls_ofExcept fun signed h => ?_
  refine incidental_bind (calls_checkTimestamp fun _ => trivial) fun _ h => ?_
  refine incidental_bind Prog.calls_ofExcept fun _ h => ?_
  refine incidental_bind Prog.calls_require fun _ h => ?_
  refine now_bind fun now h hnow => ?_
  refine Contract.wp_require_bind trivial fun hskew => ?_
  have hin : InTime payload.timestamp.toNat h := by
    unfold InTime
    omega
  refine carries_inTime.bind ?_ (fun _ => trivial) hin fun country h hin => ?_
  · cases mode with
    | enhanced => exact calls_env trivial
    | anon => exact Prog.calls_ret _
  · refine Contract.wp_bind.mpr (Contract.wp_mapError.mpr (Contract.wp_mono ?_
      (upsertSparkMode_keepsModes hin)))
    intro h r _
    cases r with
    | ok _ => exact Contract.wp_ret.mpr trivial
    | error _ => exact trivial

/-- Every handler keeps to the contract. -/
theorem handler_keepsModes : KeepsModeContract i q (handler state q) h := by
  have andReturn : ∀ {α : Type} {p : Handler α} {f : α → Response}, KeepsModeContract i q p h →
      KeepsModeContract i q (p.bind fun a => .ret (f a)) h := by
    intro α p f hp
    refine Contract.wp_bind.mpr (Contract.wp_mono ?_ hp)
    intro h r _
    cases r with
    | ok _ => exact Contract.wp_ret.mpr trivial
    | error _ => exact trivial
  by_cases haccount : q.IsAccountRequest
  · cases q with
    | register => exact andReturn register_keepsModes
    | transfer => exact andReturn transfer_keepsModes
    | setMode => exact andReturn setMode_keepsModes
    | unregister =>
        exact andReturn (incidental (calls_unregister (fun _ => trivial) (fun _ => trivial)
          fun _ _ _ _ => trivial))
    | transferIdentifierToSpark =>
        exact andReturn (incidental (calls_transferIdentifierToSpark (fun _ _ => trivial)
          (fun _ => trivial) fun _ => trivial))
    | createInternalBlinkAccount =>
        exact andReturn (incidental (calls_createInternalBlinkAccount (fun _ => trivial)
          fun _ => trivial))
    | updateInternalBlinkAccount =>
        exact andReturn (incidental (calls_updateInternalBlinkAccount fun _ _ => trivial))
    | pruneSignedMessages =>
        exact andReturn (incidental (calls_pruneSignedMessages (fun _ => trivial) fun _ => trivial))
    | refreshCountryEvidence =>
        exact andReturn (incidental (calls_refreshCountryEvidence (fun _ => trivial)
          fun _ => trivial))
    | _ => exact absurd haccount (by unfold Request.IsAccountRequest; exact id)
  · refine incidental ((calls_handler_onPayments haccount).mono fun c hc => ?_)
    cases c with
    | account op =>
        cases op with
        | upsertSparkRegistration => exact hc
        | transferIdentifier => exact hc
        | updateSparkMode => exact hc
        | _ => trivial
    | payment op => trivial
    | env op => trivial

end Contract

theorem mode_outline (state : State) :
    Outline modeContract semantics always (handler state) (fun _ _ _ _ => True) where
  lawful := modeContract_lawful
  post_stable := fun _ _ _ => trivial
  accept := fun _ _ => handler_keepsModes

theorem modes_initial (clock : Clock) : modeContract.inv ⟨World.fresh clock, []⟩ :=
  ⟨RepInv.empty, fun _ _ h => nomatch h⟩

section Server

variable {state : State} {clock : Clock} {cfg : Server}

/-- A run of the server registers by pubkey. -/
theorem reachable_byPubkey
    (h : Reachable semantics always (handler state) (World.fresh clock) cfg) :
    Reachable semantics byPubkey (handler state) (World.fresh clock) cfg := by
  refine h.within ?_
  intro cfg i q c k ch r s' hreach hth _ _ op hop
  have hcfg := Reachable.sound (mode_outline state) (modes_initial clock) hreach
  exact (hcfg.guard modeContract_lawful.toKeeps hth op hop).byPubkey

/-- In every run of the server the log tells the mode records. -/
theorem reachable_modeRun (h : Reachable semantics always (handler state) (World.fresh clock) cfg) :
    ModeRun cfg.hist :=
  ModeRun.fresh.steps (reachable_byPubkey h)

end Server

end BlinkLnurl
