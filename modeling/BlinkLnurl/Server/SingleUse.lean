import BlinkLnurl.Server.AccountContract

/-!
# Signed statements are used once

A committed claim stays on record until a prune drops it, and a prune for the
time `n` only drops claims that expired before `n`. A request that read the
clock after that prune finds its statement too old. What is left is a request
that read the clock before the prune and commits after it: it is late, and
nothing stops it. `Timely` excludes exactly these commits.

The invariant is about the log (`SingleUse`): which claims were committed, when
claims were pruned, and what the clock read before and after.
-/

namespace BlinkLnurl

open Conc Rel AccountStore

/-- What a reading of the clock returned. -/
def clockReading : CallEvent → Option Nat
  | ⟨_, .env .nowU64, now⟩ => some now
  | _ => none

/-- The claim a call inserts. -/
def Call.claim : Call → Option StatementClaim
  | .account op => op.claim
  | _ => none

/-- The `k`-th call pruned claims that expire at `expiresAt`. -/
def PrunesAt (log : List CallEvent) (k : Nat) (expiresAt : Int) : Prop :=
  (log[k]?.bind prunedAt).any (fun now => expiresAt < now) = true

instance (log : List CallEvent) (k : Nat) (expiresAt : Int) :
    Decidable (PrunesAt log k expiresAt) :=
  inferInstanceAs (Decidable (_ = true))

/-- Thread `i` read the clock, and somebody committed the claim, before a prune
dropped claims of its age. -/
def LateFor (log : List CallEvent) (i : Nat) (claim : StatementClaim) : Prop :=
  ∃ k < log.length, PrunesAt log k claim.expiresAt ∧
    (∃ ev ∈ log.take k,
      (committedClaim ev).map StatementClaim.statementHash = some claim.statementHash) ∧
    ∃ ev ∈ log.take k, ev.thread = i ∧ (clockReading ev).isSome = true

instance (log : List CallEvent) (i : Nat) (claim : StatementClaim) :
    Decidable (LateFor log i claim) := by
  unfold LateFor
  infer_instance

/-- No transaction runs late. -/
def Timely (h : History) (ev : CallEvent) : Prop :=
  ∀ claim ∈ ev.call.claim, ¬ LateFor h.log ev.thread claim

instance (h : History) (ev : CallEvent) : Decidable (Timely h ev) := by
  unfold Timely
  infer_instance

/-- The claim of the event was dropped by a later prune. -/
def Dropped (log : List CallEvent) (ev : CallEvent) (claim : StatementClaim) : Prop :=
  ∃ k < log.length, PrunesAt log k claim.expiresAt ∧ ev ∈ log.take k

/-- What the log says about the record of used statements. -/
structure SingleUse (h : History) : Prop where
  recorded : ∀ {ev claim}, ev ∈ h.log → committedClaim ev = some claim →
    (∃ row ∈ h.state.accounts.usedSignedMessages, row.statementHash = claim.statementHash ∧
      row.expiresAt = claim.expiresAt) ∨ Dropped h.log ev claim
  readings : ∀ {ev now}, ev ∈ h.log → clockReading ev = some now → now ≤ h.state.clock.secs
  prunes : ∀ {ev now}, ev ∈ h.log → prunedAt ev = some now → now ≤ h.state.clock.secs
  order : ∀ {k now ev reading}, h.log[k]?.bind prunedAt = some now → ev ∈ h.log.drop k →
    clockReading ev = some reading → now ≤ reading
  unique : ∀ {ev ev' claim claim'}, ev ∈ h.log → ev' ∈ h.log → committedClaim ev = some claim →
    committedClaim ev' = some claim' → claim.statementHash = claim'.statementHash →
    claim.expiresAt = claim'.expiresAt → ev.thread = ev'.thread

theorem SingleUse.fresh (clock : Clock) : SingleUse ⟨World.fresh clock, []⟩ where
  recorded := fun hev => absurd hev List.not_mem_nil
  readings := fun hev => absurd hev List.not_mem_nil
  prunes := fun hev => absurd hev List.not_mem_nil
  order := fun hk => by cases hk
  unique := fun hev => absurd hev List.not_mem_nil

/-! ## Logs that grow -/

section Log

variable {log : List CallEvent} {k : Nat} {ev new : CallEvent} {claim : StatementClaim}

theorem PrunesAt.append {expiresAt : Int} (hk : k < log.length) (h : PrunesAt log k expiresAt) :
    PrunesAt (log ++ [new]) k expiresAt := by
  unfold PrunesAt
  rw [List.getElem?_append_left hk]
  exact h

theorem Dropped.append (h : Dropped log ev claim) : Dropped (log ++ [new]) ev claim := by
  obtain ⟨k, hk, hprunes, hev⟩ := h
  refine ⟨k, ?_, hprunes.append hk, ?_⟩
  · rw [List.length_append]
    omega
  · rw [List.take_append_of_le_length (by omega)]
    exact hev

/-- A prune at the end of the log drops what it is for. -/
theorem dropped_of_prune {now : Int} (hev : ev ∈ log) (hprune : prunedAt new = some now)
    (hexp : claim.expiresAt < now) : Dropped (log ++ [new]) ev claim := by
  refine ⟨log.length, ?_, ?_, ?_⟩
  · rw [List.length_append, List.length_singleton]
    omega
  · unfold PrunesAt
    rw [List.getElem?_concat_length, Option.bind_some, hprune]
    exact decide_eq_true hexp
  · rw [List.take_left' rfl]
    exact hev

end Log

/-! ## The step lemma -/

/-- The clock is read as it stands. -/
theorem reading_eq {w w' : World} {i : Nat} {c : Call} {ch : Choice c} {r : Reply c} {now : Nat}
    (hexec : exec c ch w = some (r, w')) (hread : clockReading ⟨i, c, r⟩ = some now) :
    now = w.clock.secs := by
  cases c with
  | account op => cases hread
  | payment op => cases hread
  | env op =>
      cases op with
      | nowU64 =>
          cases hread
          exact (Option.some.inj (exec_env hexec).2).symm
      | _ => cases hread

theorem prune_call {i : Nat} {c : Call} {r : Reply c} {now : Int}
    (hprune : prunedAt ⟨i, c, r⟩ = some now) : c = .account (.deleteExpiredSignedMessages now) := by
  cases c with
  | payment op => cases hprune
  | env op => cases hprune
  | account op =>
      cases op with
      | deleteExpiredSignedMessages n =>
          cases r with
          | ok count =>
              cases hprune
              rfl
          | error e => cases hprune
      | _ => cases r <;> cases hprune

section Step

variable {state : State} {i : Nat} {q : Request} {h : History}

/-- The key lemma: a claim that is committed in time was not committed
before. -/
theorem SingleUse.not_committed (inv : SingleUse h) {claim : StatementClaim}
    (hclaims : Claims state.crates i q h claim) (htimely : ¬ LateFor h.log i claim)
    (hunused : ∀ row ∈ h.state.accounts.usedSignedMessages,
      row.statementHash ≠ claim.statementHash) {ev : CallEvent} {claim' : StatementClaim}
    (hev : ev ∈ h.log) (hcommitted : committedClaim ev = some claim')
    (hhash : claim'.statementHash = claim.statementHash)
    (hexpires : claim'.expiresAt = claim.expiresAt) : False := by
  rcases inv.recorded hev hcommitted with ⟨row, hrow, hrowhash, _⟩ | ⟨k, hk, hprunes, htaken⟩
  · exact hunused row hrow (hrowhash.trans hhash)
  · rw [hexpires] at hprunes
    obtain ⟨statement, timestamp, _, _, hclaimexp, now, hread, haccepts⟩ := hclaims
    have hlog : ⟨i, .env .nowU64, now⟩ ∈ h.log.take k ++ h.log.drop k := by
      rw [List.take_append_drop]
      exact (Hist.mem_callsOf.mp hread).1
    rcases List.mem_append.mp hlog with hbefore | hafter
    · -- the clock was read before the prune: the claim is late
      refine htimely ⟨k, hk, hprunes, ⟨ev, htaken, ?_⟩, _, hbefore, rfl, rfl⟩
      rw [hcommitted, Option.map_some, hhash]
    · -- the clock was read after the prune: the statement was too old
      obtain ⟨n, hn, hlt⟩ := (Option.any_eq_true _ _).mp hprunes
      have hold : n ≤ now := inv.order hn hafter rfl
      have hnow : now ≤ h.state.clock.secs := inv.readings (List.mem_of_mem_drop hafter) rfl
      have hsecs : h.state.clock.secs < 2 ^ 63 := h.state.clock.secs_lt
      have hexp : claimExpiresAt timestamp < n := by
        rw [← hclaimexp]
        exact of_decide_eq_true hlt
      rw [not_acceptsTimestamp_of_expired (by omega) hold hexp] at haccepts
      cases haccepts

/-- A call within the contract that is not late keeps the invariant. -/
theorem SingleUse.call {c : Call} {ch : Choice c} {r : Reply c} {w : World} (inv : SingleUse h)
    (hrep : RepInv h.state.accounts) (hguard : ∀ op, c = .account op → MayRun state i q h op)
    (hexec : exec c ch h.state = some (r, w)) (htimely : Timely h ⟨i, c, r⟩) :
    SingleUse (h.push ⟨i, c, r⟩ w) := by
  have heffect :=
    @exec_claims h.state w i c ch r hrep (fun op hop => (hguard op hop).byPubkey) hexec
  have hclock : w.clock = h.state.clock := exec_clock hexec
  have hclaim : ∀ claim, committedClaim ⟨i, c, r⟩ = some claim → c.claim = some claim ∧
      Claims state.crates i q h claim := by
    intro claim hc
    cases c with
    | account op =>
        cases r with
        | ok a => exact ⟨hc, (hguard op rfl).claims claim hc⟩
        | error e => cases hc
    | payment op => cases hc
    | env op => cases hc
  -- a committed claim is in time, so nobody has committed it before
  have hnew : ∀ claim, committedClaim ⟨i, c, r⟩ = some claim → ∀ ev ∈ h.log, ∀ claim',
      committedClaim ev = some claim' → claim'.statementHash = claim.statementHash →
        claim'.expiresAt = claim.expiresAt → False := by
    intro claim hc ev hev claim' hc' hhash hexpires
    obtain ⟨hcall, hclaims⟩ := hclaim claim hc
    cases heffect with
    | claims claim₁ hc₁ hclaimed =>
        obtain ⟨_, _, _, hunused, _⟩ := hclaimed
        cases hc₁.symm.trans hc
        exact inv.not_committed hclaims (htimely claim hcall) hunused hev hc' hhash hexpires
    | prunes _ _ hnone => cases hnone.symm.trans hc
    | keeps _ hnone => cases hnone.symm.trans hc
  refine ⟨?_, ?_, ?_, ?_, ?_⟩
  · -- recorded
    intro ev claim hev hc
    rw [Hist.push_log, List.mem_append, List.mem_singleton] at hev
    cases heffect with
    | claims claim₁ hc₁ hclaimed =>
        obtain ⟨row, hhash, hexp, _, hused⟩ := hclaimed
        rcases hev with hev | rfl
        · rcases inv.recorded hev hc with ⟨row', hrow', hkept⟩ | hdropped
          · exact Or.inl ⟨row', (hused row').mpr (Or.inl hrow'), hkept⟩
          · exact Or.inr hdropped.append
        · cases hc₁.symm.trans hc
          exact Or.inl ⟨row, (hused row).mpr (Or.inr rfl), hhash, hexp⟩
    | prunes now hprune hnone hused =>
        rcases hev with hev | rfl
        · rcases inv.recorded hev hc with ⟨row, hrow, hhash, hexp⟩ | hdropped
          · by_cases hlt : row.expiresAt < now
            · exact Or.inr (dropped_of_prune hev hprune (hexp ▸ hlt))
            · exact Or.inl ⟨row, (hused row).mpr ⟨hrow, hlt⟩, hhash, hexp⟩
          · exact Or.inr hdropped.append
        · cases hnone.symm.trans hc
    | keeps hprune hnone hused =>
        rcases hev with hev | rfl
        · rcases inv.recorded hev hc with hrow | hdropped
          · refine Or.inl ?_
            rw [Hist.push_state, hused]
            exact hrow
          · exact Or.inr hdropped.append
        · cases hnone.symm.trans hc
  · -- readings
    intro ev now hev hread
    rw [Hist.push_state, hclock]
    rw [Hist.push_log, List.mem_append, List.mem_singleton] at hev
    rcases hev with hev | rfl
    · exact inv.readings hev hread
    · exact le_of_eq (reading_eq hexec hread)
  · -- prunes
    intro ev now hev hprune
    rw [Hist.push_state, hclock]
    rw [Hist.push_log, List.mem_append, List.mem_singleton] at hev
    rcases hev with hev | rfl
    · exact inv.prunes hev hprune
    · obtain ⟨rfl⟩ := prune_call hprune
      exact (hguard _ rfl).prunes now rfl
  · -- order
    intro k now ev reading hk hev hread
    rw [Hist.push_log] at hk hev
    rcases Nat.lt_or_ge k h.log.length with hlt | hge
    · rw [List.getElem?_append_left hlt] at hk
      rw [List.drop_append_of_le_length (by omega), List.mem_append, List.mem_singleton] at hev
      rcases hev with hev | rfl
      · exact inv.order hk hev hread
      · obtain ⟨prune, hprune, hat⟩ := Option.bind_eq_some_iff.mp hk
        have hnow := inv.prunes (List.mem_of_getElem? hprune) hat
        rw [reading_eq hexec hread]
        exact hnow
    · -- nothing is read after the last call
      have hlast : k = h.log.length := by
        by_contra hne
        rw [List.getElem?_eq_none (by simp; omega)] at hk
        cases hk
      subst hlast
      rw [List.getElem?_concat_length, Option.bind_some] at hk
      rw [List.drop_left' rfl, List.mem_singleton] at hev
      subst hev
      obtain ⟨rfl⟩ := prune_call hk
      cases hread
  · -- unique
    intro ev ev' claim claim' hev hev' hc hc' hhash hexpires
    rw [Hist.push_log, List.mem_append, List.mem_singleton] at hev hev'
    rcases hev with hev | rfl
    · rcases hev' with hev' | rfl
      · exact inv.unique hev hev' hc hc' hhash hexpires
      · exact (hnew claim' hc' ev hev claim hc hhash hexpires).elim
    · rcases hev' with hev' | rfl
      · exact (hnew claim hc ev' hev' claim' hc' hhash.symm hexpires.symm).elim
      · rfl

/-- Time passes. -/
theorem SingleUse.tick {millis : Nat} {w : World} (inv : SingleUse h)
    (htick : semantics.tick millis h.state = some w) : SingleUse { h with state := w } := by
  obtain ⟨haccounts, _, hclock⟩ := tick_cases htick
  refine ⟨?_, ?_, ?_, inv.order, inv.unique⟩
  · intro ev claim hev hc
    show (∃ row ∈ w.accounts.usedSignedMessages, _) ∨ _
    rw [haccounts]
    exact inv.recorded hev hc
  · intro ev now hev hread
    exact (inv.readings hev hread).trans hclock
  · intro ev now hev hprune
    have hold := inv.prunes hev hprune
    show now ≤ (w.clock.secs : Int)
    omega

end Step

/-! ## The run lemma and the theorem -/

section Run

variable {state : State} {clock : Clock} {cfg : Server}

theorem always_of_timely
    (hreach : Reachable semantics Timely (handler state) (World.fresh clock) cfg) :
    Reachable semantics always (handler state) (World.fresh clock) cfg :=
  hreach.mono fun _ _ _ => trivial

/-- The run lemma. -/
theorem singleUse_of_reachable
    (hreach : Reachable semantics Timely (handler state) (World.fresh clock) cfg) :
    SingleUse cfg.hist := by
  induction hreach with
  | refl => exact SingleUse.fresh clock
  | @tail mid cfg hpre hstep ih =>
      have outlined := (always_of_timely hpre).sound (account_outline state)
        (accounts_initial state clock)
      cases hstep with
      | accept q => exact ih
      | call hth hexec htimely =>
          exact ih.call outlined.inv (outlined.guard accountContract_lawful.toKeeps hth)
            hexec htimely
      | tick htick => exact ih.tick htick

/-- Whose statement a committed claim is of. -/
theorem claim_of_commit
    (hreach : Reachable semantics Timely (handler state) (World.fresh clock) cfg) :
    ∀ ev ∈ cfg.hist.log, ∃ q, cfg.request ev.thread = some q ∧
      ∀ claim, committedClaim ev = some claim → ∃ statement timestamp,
        q.authorization state.crates = some (statement, timestamp) ∧
          claim.statementHash = statement.hash state.crates ∧
          claim.expiresAt = claimExpiresAt timestamp := by
  refine Reachable.events (account_outline state) (accounts_initial state clock)
    (G := fun _ q ev => ∀ claim, committedClaim ev = some claim → ∃ statement timestamp,
        q.authorization state.crates = some (statement, timestamp) ∧
          claim.statementHash = statement.hash state.crates ∧
          claim.expiresAt = claimExpiresAt timestamp) ?_ (always_of_timely hreach)
  intro i q h c ch r s' _ hguard _ _ claim hc
  cases c with
  | account op =>
      cases r with
      | ok a =>
          obtain ⟨statement, timestamp, hauth, hhash, hexp, _⟩ := (hguard op rfl).claims claim hc
          exact ⟨statement, timestamp, hauth, hhash, hexp⟩
      | error e => cases hc
  | payment op => cases hc
  | env op => cases hc

/-- A call that neither claims nor prunes leaves the record alone. -/
theorem unused_of_quiet {after : Server} {ev : CallEvent}
    (hbefore : Reachable semantics always (handler state) (World.fresh clock) cfg)
    (hstep : Step semantics always (handler state) cfg after)
    (hlog : after.hist.log = cfg.hist.log ++ [ev]) (hclaim : committedClaim ev = none)
    (hprune : prunedAt ev = none) :
    after.hist.state.accounts.usedSignedMessages = cfg.hist.state.accounts.usedSignedMessages := by
  have outlined := hbefore.sound (account_outline state) (accounts_initial state clock)
  cases hstep with
  | accept q => rfl
  | tick htick => exact congrArg _ (tick_cases htick).1
  | call hth hexec _ =>
      have hguard := outlined.guard accountContract_lawful.toKeeps hth
      have hev := List.append_cancel_left hlog
      cases hev
      cases exec_claims outlined.inv (fun op hop => (hguard op hop).byPubkey) hexec with
      | claims claim hc _ => cases hclaim.symm.trans hc
      | prunes now hp _ _ => cases hprune.symm.trans hp
      | keeps _ _ hsame => exact hsame

end Run

/-- Thread `i` has committed the write its statement authorizes. -/
def Committed (h : History) (i : Nat) : Prop :=
  ∃ ev ∈ h.log, ev.thread = i ∧ (committedClaim ev).isSome = true

instance (h : History) (i : Nat) : Decidable (Committed h i) := by
  unfold Committed
  infer_instance

/-- In every run in which no transaction is late, of two requests that carry
the same statement at most one commits. In every run, late or not, a request that
ends in an error has left the record of used statements as it was, at each of its
calls. -/
theorem statement_used_once (state : State) {clock : Clock} :
    (∀ cfg : Server, Reachable semantics Timely (handler state) (World.fresh clock) cfg →
      ∀ i j q q' statement, i ≠ j → cfg.request i = some q → cfg.request j = some q' →
        q.CarriesStatement state.crates statement → q'.CarriesStatement state.crates statement →
          ¬ (Committed cfg.hist i ∧ Committed cfg.hist j)) ∧
    (∀ cfg : Server, Reachable semantics always (handler state) (World.fresh clock) cfg →
      ∀ i e, cfg.outcome i = some (.error e) → ∀ (before after : Server) (ev : CallEvent),
        Reachable semantics always (handler state) (World.fresh clock) before →
        Step semantics always (handler state) before after →
        Steps semantics always (handler state) after cfg →
        after.hist.log = before.hist.log ++ [ev] → ev.thread = i →
          after.hist.state.accounts.usedSignedMessages =
            before.hist.state.accounts.usedSignedMessages) := by
  constructor
  · intro cfg hreach i j q q' statement hne hq hq' hcarries hcarries' ⟨hi, hj⟩
    obtain ⟨ev, hev, rfl, hsome⟩ := hi
    obtain ⟨ev', hev', rfl, hsome'⟩ := hj
    obtain ⟨claim, hc⟩ := Option.isSome_iff_exists.mp hsome
    obtain ⟨claim', hc'⟩ := Option.isSome_iff_exists.mp hsome'
    obtain ⟨_, hreq, hclaim⟩ := claim_of_commit hreach ev hev
    obtain ⟨_, hreq', hclaim'⟩ := claim_of_commit hreach ev' hev'
    cases hq.symm.trans hreq
    cases hq'.symm.trans hreq'
    obtain ⟨s, ts, hauth, hhash, hexp⟩ := hclaim claim hc
    obtain ⟨s', ts', hauth', hhash', hexp'⟩ := hclaim' claim' hc'
    obtain ⟨rfl, rfl⟩ := same_authorization hcarries hcarries' hauth hauth'
    exact hne ((singleUse_of_reachable hreach).unique hev hev' hc hc'
      (hhash.trans hhash'.symm) (hexp.trans hexp'.symm))
  · intro cfg hreach i e hfail before after ev hbefore hstep hafter hlog hthread
    have outlined := hreach.sound (account_outline state) (accounts_initial state clock)
    obtain ⟨q, _, hquiet⟩ := outlined.finished hfail
    have hev : ev ∈ cfg.hist.log := by
      refine hafter.log_prefix.subset ?_
      rw [hlog]
      exact List.mem_append_right _ (List.mem_singleton_self _)
    obtain ⟨hclaim, hprune⟩ := hquiet ev (Hist.mem_callsOf.mpr ⟨hev, hthread⟩)
    exact unused_of_quiet hbefore hstep hlog hclaim hprune

/-! ## Examples

A register is replayed. In time it is refused; with a prune between its clock
check and its transaction it commits again. -/

section Example

open Deployment Schedule

def replaySigned : Deployment :=
  { keys := [ownerKey]
    signed := [(ownerKey, "alice-1000")] }

def replayedRegister : Request :=
  .register blinkHost ownerKey.hex ⟨"alice", "3006020101020101", 1000, "Pay to alice@d.io"⟩

def replayedStatement : Statement := ⟨ownerKey, "d.io", "alice-1000"⟩

theorem carries_replayed :
    replayedRegister.CarriesStatement replaySigned.state.crates replayedStatement := by
  decide +kernel

/-- The register, then once more. -/
def replayInTime : Schedule :=
  serve replayedRegister ++ calls 0 4 ++ serve replayedRegister ++
    calls 1 4 { generatedId := "acct_2" }

/-- The second request reads the clock at 1600, the last second of the accept
window; the prune of 1601 comes before its transaction. -/
def replayAfterPrune : Schedule :=
  serve replayedRegister ++ calls 0 4 ++ wait 600000 ++ serve replayedRegister ++ calls 1 2 ++
    wait 1000 ++ serve .pruneSignedMessages ++ calls 2 2 { generatedId := "acct_2" } ++
    calls 1 2 { generatedId := "acct_2" }

theorem statement_used_once_replayed :
    ∃ cfg : Server, cfg.request 0 = some replayedRegister ∧ cfg.request 1 = some replayedRegister ∧
      Committed cfg.hist 0 ∧ ¬ Committed cfg.hist 1 := by
  obtain ⟨cfg, hreach, hserved, hcommitted⟩ := replaySigned.reachable_of_run Timely 1000000
    (by decide) replayInTime (fun cfg => Committed cfg.hist 0) (by decide +kernel)
  have honce := (statement_used_once replaySigned.state).1 cfg hreach 0 1 _ _ replayedStatement
    (by decide) (hserved 0) (hserved 1) carries_replayed carries_replayed
  have hfirst : Committed cfg.hist 0 := of_decide_eq_true hcommitted
  exact ⟨cfg, hserved 0, hserved 1, hfirst, fun hsecond => honce ⟨hfirst, hsecond⟩⟩

/-- The same signed statement is committed twice. -/
theorem statement_used_twice :
    ∃ cfg : Server,
      Reachable semantics always (handler replaySigned.state)
      (World.fresh ⟨1000000, by decide⟩) cfg ∧
      cfg.request 0 = some replayedRegister ∧ cfg.request 1 = some replayedRegister ∧
      replayedRegister.CarriesStatement replaySigned.state.crates replayedStatement ∧
      Committed cfg.hist 0 ∧ Committed cfg.hist 1 := by
  obtain ⟨cfg, hreach, hserved, hcommitted⟩ := replaySigned.reachable_of_run always 1000000
    (by decide) replayAfterPrune (fun cfg => Committed cfg.hist 0 ∧ Committed cfg.hist 1)
    (by decide +kernel)
  obtain ⟨hfirst, hsecond⟩ := of_decide_eq_true hcommitted
  exact ⟨cfg, hreach, hserved 0, hserved 1, carries_replayed, hfirst, hsecond⟩

end Example

end BlinkLnurl
