import BlinkLnurl.Repository.AccountInvariant
import BlinkLnurl.Server.Deployment
import BlinkLnurl.Server.Effects
import BlinkLnurl.Server.Footprints
import BlinkLnurl.Server.Statements

/-!
# What the routes hold when they write accounts

One proof outline of all handlers, for everything the account tables are asked
about. A route that is about to write identifiers is within `Permits`, which
says on whose behalf it writes; a claim it inserts is that of its own signed
statement, whose time it has checked (`Claims`); a prune is for a time that has
come. A route that ends in an error has claimed nothing (`Quiet`), and a
register that ends well has just registered (`RegisteredLast`).

What a transfer knows about its source it read in an earlier call, so it relies
on the account of a pubkey staying its account.
-/

namespace BlinkLnurl

open Conc Rel AccountStore

/-! ## Consent -/

/-- The signed request parses to the key, and one of the messages verifies
under it. -/
structure SignedFor (crates : Crates) (pubkey signature owner : String)
    (messages : PublicKey → List Candidate) : Prop where
  signed : ∃ pk sig, parseSignedRequest crates pubkey signature = .ok (pk, sig) ∧ pk.hex = owner ∧
    ∃ c ∈ messages pk, crates.verifyMessage c.message sig pk = true

/-- The operations that may take `username` on `domain` from `owner`, and the requests that
may run them: each is the operation that a message signed by `owner` is for, or a migration
to `owner`. `s` is the store that the operation runs on. -/
inductive ReleasedBy (state : State) (s : AccountStore) (domain username owner : String) :
    Request → AccountOp → Prop
  | registersAnother {host pubkey payload registration} :
      canonicalSparkUsernameForRoute state.crates payload.username =
        .ok registration.identifier.identifier →
      registration.identifier.identifier ≠ username →
      lowercase state.crates (RustStr.trim host.text) = domain →
      registration.identifier.domain = domain → registration.pubkey = owner →
      SignedFor state.crates pubkey payload.signature owner (fun _ =>
        registerCandidates state.crates domain registration.identifier.identifier
          payload.description payload.timestamp) →
      ReleasedBy state s domain username owner (.register host pubkey payload)
        (.upsertSparkRegistration registration)
  | unregisters {host pubkey payload claim} :
      canonicalSparkUsernameForRoute state.crates payload.username = .ok username →
      lowercase state.crates (RustStr.trim host.text) = domain →
      SignedFor state.crates pubkey payload.signature owner (fun _ =>
        unregisterCandidates domain username payload.timestamp) →
      ReleasedBy state s domain username owner (.unregister host pubkey payload)
        (.deleteSparkRegistration domain owner username claim)
  | transfersAway {host toPubkey payload timestamp target t} :
      canonicalSparkUsernameForRoute state.crates payload.username = .ok username →
      lowercase state.crates (RustStr.trim host.text) = domain →
      payload.timestamp = some timestamp →
      parsePubkey state.crates toPubkey = .ok target →
      t.domain = domain → t.identifier = username → t.destinationSparkPubkey = target.hex →
      SignedFor state.crates payload.fromPubkey payload.fromSignature owner (fun pk =>
        transferFromCandidates domain username pk target timestamp) →
      ReleasedBy state s domain username owner (.transfer host toPubkey payload)
        (.transferIdentifier t)
  | receivesAnother {host toPubkey payload timestamp source t} :
      canonicalSparkUsernameForRoute state.crates payload.username = .ok t.identifier →
      t.identifier ≠ username →
      lowercase state.crates (RustStr.trim host.text) = domain →
      payload.timestamp = some timestamp →
      parsePubkey state.crates payload.fromPubkey = .ok source →
      t.domain = domain → s.HasSpark t.sourceAccountId source.hex →
      t.destinationSparkPubkey = owner →
      SignedFor state.crates toPubkey payload.toSignature owner (fun pk =>
        transferToCandidates state.crates domain t.identifier source pk payload.description
          timestamp) →
      ReleasedBy state s domain username owner (.transfer host toPubkey payload)
        (.transferIdentifier t)
  | migratedTo {principal payload pk t} :
      validateInternalDomain state.crates payload.domain = .ok domain →
      parsePubkey state.crates (RustStr.trim payload.destinationSparkPubkey) = .ok pk →
      pk.hex = owner → t.domain = domain → t.destinationSparkPubkey = owner →
      ReleasedBy state s domain username owner
        (.transferIdentifierToSpark principal (some payload)) (.transferBlinkIdentifierToSpark t)

/-- On whose behalf a request may run an operation. -/
def Permits (state : State) (q : Request) (s : AccountStore) : AccountOp → Prop
  | .upsertSparkRegistration registration =>
      ∀ username ≠ registration.identifier.identifier,
        ReleasedBy state s registration.identifier.domain username registration.pubkey q
          (.upsertSparkRegistration registration)
  | .deleteSparkRegistration domain pubkey username claim =>
      ReleasedBy state s domain username pubkey q
        (.deleteSparkRegistration domain pubkey username claim)
  | .transferIdentifier t =>
      (∃ owner, s.HasSpark t.sourceAccountId owner ∧
        ReleasedBy state s t.domain t.identifier owner q (.transferIdentifier t)) ∧
        ∀ username ≠ t.identifier,
          ReleasedBy state s t.domain username t.destinationSparkPubkey q (.transferIdentifier t)
  | .transferBlinkIdentifierToSpark t =>
      ∀ username, ReleasedBy state s t.domain username t.destinationSparkPubkey q
        (.transferBlinkIdentifierToSpark t)
  | _ => True

/-! ## The contract -/

/-- Thread `i` has read the clock and found `timestamp` acceptable. -/
def Checked (i : Nat) (timestamp : UInt64) (h : History) : Prop :=
  ∃ now, ⟨i, .env .nowU64, now⟩ ∈ h.callsOf i ∧ acceptsTimestamp now timestamp = true

/-- The claim is that of the statement the request is authorized by, and the
time of the statement has been checked. -/
def Claims (crates : Crates) (i : Nat) (q : Request) (h : History) (claim : StatementClaim) :
    Prop :=
  ∃ statement timestamp, q.authorization crates = some (statement, timestamp) ∧
    claim.statementHash = statement.hash crates ∧ claim.expiresAt = claimExpiresAt timestamp ∧
    Checked i timestamp h

theorem claims_statement {crates : Crates} {i : Nat} {q : Request} {h : History}
    {pubkey : PublicKey}
    {domain : String} {candidate : Candidate} {timestamp : UInt64}
    (hauth : q.authorization crates = some (⟨pubkey, domain, candidate.message⟩, timestamp))
    (hchecked : Checked i timestamp h) :
    Claims crates i q h (statementClaim crates pubkey domain candidate timestamp) := by
  refine ⟨_, timestamp, hauth, ?_, ?_, hchecked⟩
  · simp only [statementClaim]
  · simp only [statementClaim]

/-- What holds when thread `i`, serving `q`, runs an account operation. -/
structure MayRun (state : State) (i : Nat) (q : Request) (h : History) (op : AccountOp) : Prop where
  byPubkey : op.ByPubkey
  permits : Permits state q h.state.accounts op
  claims : ∀ claim, op.claim = some claim → Claims state.crates i q h claim
  prunes : ∀ now, op = .deleteExpiredSignedMessages now → now ≤ h.state.clock.secs

/-- Accounts of pubkeys stay, the clock does not go back, and the calls of a
thread are its own. -/
structure Undisturbed (i : Nat) (h h' : History) : Prop where
  hasSpark : ∀ id pk, h.state.accounts.HasSpark id pk → h'.state.accounts.HasSpark id pk
  clock : h.state.clock.secs ≤ h'.state.clock.secs
  callsOf : h'.callsOf i = h.callsOf i

def accountContract (state : State) : Contract Request Call Reply World where
  inv h := RepInv h.state.accounts
  rely i h h' := Undisturbed i h h'
  guard i q h c := ∀ op, c = .account op → MayRun state i q h op

/-- Thread `i` has neither claimed a statement nor pruned claims. -/
def Quiet (i : Nat) (h : History) : Prop :=
  ∀ ev ∈ h.callsOf i, committedClaim ev = none ∧ prunedAt ev = none

/-- What a route carries along: it is quiet, and `checked` is the timestamp it
has checked, if it has. -/
structure Going (i : Nat) (checked : Option UInt64) (h : History) : Prop where
  quiet : Quiet i h
  checked : ∀ timestamp, checked = some timestamp → Checked i timestamp h

/-- How a route ends: well and with `V`, or with an error and quiet. -/
def Ends {ε α : Type} (i : Nat) (V : History → α → Prop) (h : History) (r : Except ε α) : Prop :=
  match r with
  | .ok a => V h a
  | .error _ => Quiet i h

section Outline

variable {state : State} {i : Nat} {q : Request} {checked : Option UInt64}

theorem accountContract_lawful : (accountContract state).Lawful semantics always where
  refl := fun _ _ => ⟨fun _ _ hs => hs, le_refl _, rfl⟩
  call := fun inv hguard hexec _ => exec_repInv inv (fun op hop => (hguard op hop).byPubkey) hexec
  tick := fun {h t s'} inv htick => by
    show RepInv s'.accounts
    rw [(tick_cases htick).1]
    exact inv
  trans := fun h₁ h₂ =>
    ⟨fun id pk hs => h₂.hasSpark id pk (h₁.hasSpark id pk hs), h₁.clock.trans h₂.clock,
      h₂.callsOf.trans h₁.callsOf⟩
  others := fun {i j q h c ch r s'} inv hguard hexec _ hne =>
    ⟨fun _ _ hs => exec_hasSpark inv (fun op hop => (hguard op hop).byPubkey) hexec hs,
      by rw [Hist.push_state, exec_clock hexec], Hist.callsOf_push_ne hne⟩
  ticks := fun {j h t s'} _ htick => by
    obtain ⟨haccounts, _, hclock⟩ := tick_cases htick
    refine ⟨fun id pk hs => ?_, hclock, rfl⟩
    show s'.accounts.HasSpark id pk
    rw [haccounts]
    exact hs

/-- Calls that every route may make at any time: reads, mode writes and payment
calls. -/
def Call.IsHarmless (c : Call) : Prop := c.IsUpkeep ∨ c.OnPayments

theorem upkeep_isHarmless (c : Call) (h : c.IsUpkeep) : c.IsHarmless := Or.inl h

theorem mayRun_of_harmless {h : History} {op : AccountOp} (hop : (Call.account op).IsHarmless) :
    MayRun state i q h op := by
  cases op with
  | upsertSparkRegistration => rcases hop with hop | hop <;> cases hop
  | deleteSparkRegistration => rcases hop with hop | hop <;> cases hop
  | transferIdentifier => rcases hop with hop | hop <;> cases hop
  | transferBlinkIdentifierToSpark => rcases hop with hop | hop <;> cases hop
  | deleteExpiredSignedMessages => rcases hop with hop | hop <;> cases hop
  | _ => exact ⟨trivial, trivial, fun _ hc => (by cases hc), fun _ hn => (by cases hn)⟩

/-- A harmless call claims nothing and prunes nothing. -/
theorem quiet_of_harmless {c : Call} {r : Reply c} (hc : c.IsHarmless) :
    committedClaim ⟨i, c, r⟩ = none ∧ prunedAt ⟨i, c, r⟩ = none := by
  cases c with
  | payment op => exact ⟨rfl, rfl⟩
  | env op => exact ⟨rfl, rfl⟩
  | account op =>
      cases op with
      | upsertSparkRegistration => rcases hc with hc | hc <;> cases hc
      | deleteSparkRegistration => rcases hc with hc | hc <;> cases hc
      | transferIdentifier => rcases hc with hc | hc <;> cases hc
      | transferBlinkIdentifierToSpark => rcases hc with hc | hc <;> cases hc
      | deleteExpiredSignedMessages => rcases hc with hc | hc <;> cases hc
      | _ => cases r <;> exact ⟨rfl, rfl⟩

theorem harmless_carries :
    (accountContract state).Carries semantics always i q Call.IsHarmless fun _ => True where
  rely := fun _ _ => trivial
  guard := fun _ hc _ hop => mayRun_of_harmless (hop ▸ hc)
  call := fun _ _ _ _ _ => trivial

/-- A call of another thread, or a harmless call of its own, does not stop a
route. -/
theorem Going.undisturbed {h h' : History} (going : Going i checked h)
    (hrely : Undisturbed i h h') : Going i checked h' where
  quiet := by
    unfold Quiet
    rw [hrely.callsOf]
    exact going.quiet
  checked := fun timestamp hts => by
    unfold Checked
    rw [hrely.callsOf]
    exact going.checked timestamp hts

theorem Going.push {h : History} {c : Call} {r : Reply c} {w : World} (going : Going i checked h)
    (hquiet : committedClaim ⟨i, c, r⟩ = none ∧ prunedAt ⟨i, c, r⟩ = none) :
    Going i checked (h.push ⟨i, c, r⟩ w) where
  quiet := by
    unfold Quiet
    rw [Hist.callsOf_push_self]
    intro ev hev
    rcases List.mem_append.mp hev with hev | hev
    · exact going.quiet ev hev
    · rw [List.mem_singleton.mp hev]
      exact hquiet
  checked := fun timestamp hts => by
    obtain ⟨now, hmem, haccept⟩ := going.checked timestamp hts
    refine ⟨now, ?_, haccept⟩
    rw [Hist.callsOf_push_self]
    exact List.mem_append_left _ hmem

theorem going_carries :
    (accountContract state).Carries semantics always i q Call.IsHarmless (Going i checked) where
  rely := fun hrely going => going.undisturbed hrely
  guard := fun _ hc _ hop => mayRun_of_harmless (hop ▸ hc)
  call := fun _ hc _ _ going => going.push (quiet_of_harmless hc)

/-- What is shown of a route: it keeps to the contract and ends in `V`. -/
abbrev RouteEnds (state : State) (i : Nat) (q : Request) {ε α : Type} (p : Prog Call Reply ε α)
    (V : History → α → Prop) (h : History) : Prop :=
  (accountContract state).wp semantics always i q p (Ends i V) h

variable {ε ε' α β : Type} {V : History → β → Prop} {h : History}

/-- A check that is a result already there. -/
theorem ofExcept_bind {x : Except ε α} {f : α → Prog Call Reply ε β} (going : Going i checked h)
    (hf : ∀ a, x = .ok a → RouteEnds state i q (f a) V h) :
    RouteEnds state i q ((Prog.ofExcept x).bind f) V h :=
  Contract.wp_ofExcept_bind (fun _ => going.quiet) hf

theorem require_bind {c : Prop} [Decidable c] {e : ε} {f : Unit → Prog Call Reply ε β}
    (going : Going i checked h) (hf : c → RouteEnds state i q (f ()) V h) :
    RouteEnds state i q ((Prog.require c e).bind f) V h := Contract.wp_require_bind going.quiet hf

/-- A part that only makes harmless calls. -/
theorem harmless_bind {p : Prog Call Reply ε α} {f : α → Prog Call Reply ε β}
    (going : Going i checked h) (hp : p.Calls Call.IsUpkeep)
    (hf : ∀ a h, Going i checked h → RouteEnds state i q (f a) V h) :
    RouteEnds state i q (p.bind f) V h :=
  going_carries.bind (hp.mono upkeep_isHarmless) (fun going => going.quiet) going hf

/-- A route that only makes harmless calls. -/
theorem harmless {p : Prog Call Reply ε α} (going : Going i checked h)
    (hp : p.Calls Call.IsHarmless) : RouteEnds state i q p (fun _ _ => True) h := by
  refine going_carries.last hp (fun {h r} going => ?_) going
  cases r with
  | ok a => exact trivial
  | error e => exact going.quiet

/-- The clock check: afterwards the timestamp is checked. -/
theorem checkTimestamp_ends {timestamp : UInt64} (going : Going i checked h) :
    (accountContract state).wp semantics always i q (checkTimestamp timestamp)
      (fun h r => Quiet i h ∧ ∀ u, r = .ok u → Going i (some timestamp) h) h := by
  simp only [checkTimestamp, Prog.bind_eq]
  refine Contract.wp_bind.mpr (Contract.wp_call.mpr ?_)
  intro h₁ hrely _
  refine ⟨fun op hop => (by cases hop), ?_⟩
  intro ch now s' _ _ _
  have hquiet : committedClaim ⟨i, .env .nowU64, now⟩ = none ∧
      prunedAt ⟨i, .env .nowU64, now⟩ = none := ⟨rfl, rfl⟩
  have going' : Going i checked (h₁.push ⟨i, .env .nowU64, now⟩ s') :=
    (going.undisturbed hrely).push hquiet
  refine Contract.wp_ret.mpr (Contract.wp_require.mpr ⟨fun haccept => ?_, fun _ => ?_⟩)
  · refine ⟨going'.quiet, fun _ _ => ⟨going'.quiet, fun ts hts => ?_⟩⟩
    cases hts
    refine ⟨now, ?_, haccept⟩
    rw [Hist.callsOf_push_self]
    exact List.mem_append_right _ (List.mem_singleton_self _)
  · exact ⟨going'.quiet, fun _ hu => by cases hu⟩

theorem checkTimestamp_bind {timestamp : UInt64} {f : Unit → Handler β} (going : Going i checked h)
    (hf : ∀ h, Going i (some timestamp) h → RouteEnds state i q (f ()) V h) :
    RouteEnds state i q ((checkTimestamp timestamp).bind f) V h := by
  refine Contract.wp_bind.mpr (Contract.wp_mono ?_ (checkTimestamp_ends going))
  intro h r ⟨hquiet, hgoing⟩
  cases r with
  | ok u => exact hf h (hgoing u rfl)
  | error e => exact hquiet

/-- A store call that writes: it may be run whatever has happened in between,
and where it fails nothing was claimed. -/
theorem write_bind {op : AccountOp} {e : RepositoryError → ApiError} {f : op.Result → Handler β}
    (going : Going i checked h)
    (hmay : ∀ h', Undisturbed i h h' → Going i checked h' → MayRun state i q h' op)
    (hf : ∀ a (h : History) w, RouteEnds state i q (f a) V (h.push ⟨i, .account op, .ok a⟩ w)) :
    RouteEnds state i q (((Store.account op).mapError e).bind f) V h := by
  refine Contract.wp_bind.mpr (Contract.wp_mapError.mpr (Contract.wp_call.mpr ?_))
  intro h₁ hrely _
  have going₁ := going.undisturbed hrely
  refine ⟨fun op' hop => by cases hop; exact hmay h₁ hrely going₁, ?_⟩
  intro ch r s' _ _ _
  refine Contract.wp_ofExcept.mpr ?_
  cases r with
  | ok a => exact hf a h₁ s'
  | error err => exact (going₁.push ⟨rfl, by cases op <;> rfl⟩).quiet

theorem write_last {op : AccountOp} {e : RepositoryError → ApiError} (going : Going i checked h)
    (hmay : ∀ h', Undisturbed i h h' → Going i checked h' → MayRun state i q h' op) :
    RouteEnds state i q ((Store.account op).mapError e) (fun _ _ => True) h := by
  refine Contract.wp_mapError.mpr (Contract.wp_call.mpr ?_)
  intro h₁ hrely _
  have going₁ := going.undisturbed hrely
  refine ⟨fun op' hop => by cases hop; exact hmay h₁ hrely going₁, ?_⟩
  intro ch r s' _ _ _
  refine Contract.wp_ofExcept.mpr ?_
  cases r with
  | ok a => exact trivial
  | error err => exact (going₁.push ⟨rfl, by cases op <;> rfl⟩).quiet

/-- What follows a write and cannot fail. -/
theorem attempt_ret {p : Prog Call Reply ε' α} {b : β} (hp : p.Calls Call.IsUpkeep) :
    RouteEnds state i q ((p.attempt : Prog Call Reply ε (Except ε' α)).bind fun _ => .ret b)
      (fun _ _ => True) h :=
  harmless_carries.attempt_bind (hp.mono upkeep_isHarmless) trivial fun _ _ _ =>
    Contract.wp_ret.mpr trivial

end Outline

/-! ## The routes within the contract -/

section Routes

variable {state : State} {i : Nat} {h : History}

theorem upkeep_env (op : EnvOp) : Call.IsUpkeep (.env op) := trivial

theorem parsePubkey_of_signed {crates : Crates} {pubkey signature : String}
    {signed : PublicKey × Signature}
    (h : parseSignedRequest crates pubkey signature = .ok signed) :
    parsePubkey crates pubkey = .ok signed.1 := by
  unfold parseSignedRequest at h
  cases hkey : parsePubkey crates pubkey with
  | error e =>
      rw [hkey] at h
      cases h
  | ok key =>
      rw [hkey] at h
      cases hsignature : parseSignature crates signature with
      | error e =>
          rw [hsignature] at h
          cases h
      | ok sig =>
          rw [hsignature] at h
          cases h
          rfl

theorem signedFor_of_verified {crates : Crates} {pubkey signature : String}
    {signed : PublicKey × Signature} {domain : Option String} {c : Candidate}
    (messages : PublicKey → List Candidate)
    (hparse : parseSignedRequest crates pubkey signature = .ok signed)
    (hverify : verifyCandidates crates signed.1 signed.2 (messages signed.1) domain = .ok c) :
    SignedFor crates pubkey signature signed.1.hex messages := by
  obtain ⟨hmem, hok⟩ := firstVerified_mem (verifyCandidates_ok hverify)
  exact ⟨signed.1, signed.2, hparse, rfl, c, hmem, hok⟩

/-- The resolved domain, then the rest. -/
theorem domain_bind {q : Request} {host : Host} {β : Type} {V : History → β → Prop}
    {f : String → Handler β} (going : Going i none h)
    (hf : ∀ h, Going i none h → RouteEnds state i q (f (hostDomain state.crates host)) V h) :
    RouteEnds state i q ((sanitizeDomain state.crates host.text).bind f) V h := by
  refine going_carries.bind_returns ((calls_sanitizeDomain upkeep_env).mono upkeep_isHarmless)
    returns_sanitizeDomain (fun going => going.quiet) going ?_
  intro domain h hdomain going
  rw [hdomain]
  exact hf h going

/-- The last call of a register that answered `address`: the registration of
the verified request, committed. -/
def RegisteredLast (state : State) (i : Nat) (host : Host) (pubkey : String)
    (payload : RegisterLnurlPayRequest) (h : History) (address : LightningAddress) : Prop :=
  ∃ signed username authorization,
    parseSignedRequest state.crates pubkey payload.signature = .ok signed ∧
    canonicalSparkUsernameForRoute state.crates payload.username = .ok username ∧
    address = lightningAddressOf username (hostDomain state.crates host) ∧
    (h.callsOf i).getLast? = some ⟨i, .account (.upsertSparkRegistration
      (newRegistration state.crates signed.1 (hostDomain state.crates host) username payload
        authorization)), .ok ()⟩

theorem register_ends {host : Host} {pubkey : String} {payload : RegisterLnurlPayRequest}
    (going : Going i none h) :
    RouteEnds state i (.register host pubkey payload) (register state host pubkey payload)
      (RegisteredLast state i host pubkey payload) h := by
  simp only [register, Prog.bind_eq, Prog.pure_eq]
  refine ofExcept_bind going fun _ _ => ofExcept_bind going fun username husername => ?_
  refine ofExcept_bind going fun _ _ => domain_bind going fun h going => ?_
  refine ofExcept_bind going fun signed hsigned => checkTimestamp_bind going fun h going => ?_
  refine ofExcept_bind going fun authorization hverify => ?_
  refine harmless_bind going (calls_storedAccountMode trivial) fun _ h going => ?_
  refine require_bind going fun _ => write_bind going (fun h' _ going' => ⟨rfl, ?_, ?_, ?_⟩) ?_
  · intro other hne
    exact .registersAnother husername (Ne.symm hne) rfl rfl rfl
      (signedFor_of_verified (fun _ => registerCandidates _ _ _ _ _) hsigned hverify)
  · intro claim hclaim
    cases hclaim
    refine claims_statement ?_ (going'.checked _ rfl)
    simp only [Request.authorization, husername, hsigned, Except.toOption, Option.bind_eq_bind,
      Option.bind_some, hverify, Option.pure_def]
  · intro now hnow
    cases hnow
  · intro _ h' w
    refine Contract.wp_ret.mpr ?_
    refine ⟨signed, username, authorization, hsigned, husername, rfl, ?_⟩
    rw [Hist.callsOf_push_self, List.getLast?_concat]

theorem unregister_ends {host : Host} {pubkey : String} {payload : UnregisterLnurlPayRequest}
    (going : Going i none h) :
    RouteEnds state i (.unregister host pubkey payload) (unregister state host pubkey payload)
      (fun _ _ => True) h := by
  simp only [unregister, Prog.bind_eq]
  refine ofExcept_bind going fun _ _ => ofExcept_bind going fun username husername => ?_
  refine domain_bind going fun h going => ofExcept_bind going fun signed hsigned => ?_
  refine checkTimestamp_bind going fun h going =>
    ofExcept_bind going fun authorization hverify => ?_
  refine harmless_bind going (Prog.calls_mapError.mpr (calls_account trivial)) fun _ h going => ?_
  refine write_last going fun h' _ going' => ⟨trivial, ?_, ?_, ?_⟩
  · exact .unregisters husername rfl
      (signedFor_of_verified (fun _ => unregisterCandidates _ _ _) hsigned hverify)
  · intro claim hclaim
    cases hclaim
    refine claims_statement ?_ (going'.checked _ rfl)
    simp only [Request.authorization, husername, hsigned, Except.toOption, Option.bind_eq_bind,
      Option.bind_some, hverify, Option.pure_def]
  · intro now hnow
    cases hnow

/-- A lookup tells whose account the name has. -/
theorem resolve_bind {q : Request} {checked : Option UInt64} {domain username : String}
    {e : RepositoryError → ApiError} {β : Type} {V : History → β → Prop}
    {f : Option ResolvedRecipient → Handler β} (going : Going i checked h)
    (hf : ∀ r h, Going i checked h → (∀ recipient, r = some recipient →
      ∀ pk, recipient.sparkPubkey = some pk → h.state.accounts.HasSpark recipient.accountId pk) →
        RouteEnds state i q (f r) V h) :
    RouteEnds state i q
      (((Store.account (.resolveRecipientByIdentifier domain username)).mapError e).bind f)
      V h := by
  refine Contract.wp_bind.mpr (Contract.wp_mapError.mpr (Contract.wp_call.mpr ?_))
  intro h₁ hrely inv
  have harmless : Call.IsHarmless (.account (.resolveRecipientByIdentifier domain username)) :=
    Or.inl trivial
  refine ⟨fun op hop => by cases hop; exact mayRun_of_harmless harmless, ?_⟩
  intro ch r s' hexec _ _
  have going' : Going i checked (h₁.push ⟨i, _, r⟩ s') :=
    (going.undisturbed hrely).push (quiet_of_harmless harmless)
  refine Contract.wp_ofExcept.mpr ?_
  rcases execAccount_cases hexec with ⟨_, err, rfl⟩ | ⟨a, accounts, rfl, hrun, rfl, _⟩
  · exact going'.quiet
  · refine hf a _ going' ?_
    intro recipient ha pk hpk
    subst ha
    -- the operation reads only, and what it returns is a stored account
    simp only [AccountOp.run] at hrun
    rcases resolve_cases inv domain username with hnone | ⟨x, _, _, _, r, hr, hacc, _, _, hspark⟩
    · rw [hnone] at hrun
      cases hrun
    · rw [hr] at hrun
      cases hrun
      show h₁.state.accounts.HasSpark recipient.accountId pk
      rw [hacc]
      exact (hspark pk).mp hpk

theorem transfer_ends {host : Host} {toPubkey : String} {payload : TransferLnurlPayRequest}
    (going : Going i none h) :
    RouteEnds state i (.transfer host toPubkey payload) (transfer state host toPubkey payload)
      (fun _ _ => True) h := by
  simp only [transfer, Prog.bind_eq, Prog.pure_eq]
  refine ofExcept_bind going fun _ _ => ofExcept_bind going fun username husername => ?_
  refine ofExcept_bind going fun _ _ => domain_bind going fun h going => ?_
  refine ofExcept_bind going fun source hsource => ofExcept_bind going fun target htarget => ?_
  refine ofExcept_bind going fun timestamp htimestamp => ?_
  have hts : payload.timestamp = some timestamp := by
    split at htimestamp
    · cases htimestamp
      assumption
    · cases htimestamp
  refine Contract.wp_bind.mpr (Contract.wp_mapError.mpr
    (Contract.wp_mono ?_ (checkTimestamp_ends going)))
  rintro h r ⟨hquiet, hgoing⟩
  cases r with
  | error e => exact hquiet
  | ok u =>
      have going := hgoing u rfl
      refine ofExcept_bind going fun authorization hfrom => ofExcept_bind going fun _ hto => ?_
      refine require_bind going fun _ => ?_
      refine harmless_bind going (calls_storedAccountMode trivial) fun _ h going => ?_
      refine require_bind going fun _ => resolve_bind going fun resolved h going hresolved => ?_
      refine ofExcept_bind going fun recipient hrecipient => ?_
      have hsome : resolved = some recipient := by
        split at hrecipient
        · cases hrecipient
          rfl
        · cases hrecipient
      refine require_bind going fun hsourcePk => ?_
      have hspark := hresolved recipient hsome source.1.hex hsourcePk
      refine write_bind going (fun h' hrely going' => ⟨trivial, ⟨?_, ?_⟩, ?_, ?_⟩) fun _ _ _ =>
        attempt_ret (calls_account trivial)
      · refine ⟨source.1.hex, hrely.hasSpark _ _ hspark, ?_⟩
        exact .transfersAway husername rfl hts (parsePubkey_of_signed htarget) rfl rfl rfl
          (signedFor_of_verified (fun pk => transferFromCandidates _ _ pk target.1 _) hsource hfrom)
      · intro other hne
        exact .receivesAnother husername (Ne.symm hne) rfl hts (parsePubkey_of_signed hsource) rfl
          (hrely.hasSpark _ _ hspark) rfl
          (signedFor_of_verified (fun pk => transferToCandidates _ _ _ source.1 pk _ _) htarget hto)
      · intro claim hclaim
        cases hclaim
        refine claims_statement ?_ (going'.checked _ rfl)
        simp only [Request.authorization, husername, hsource, htarget, hts, Except.toOption,
          Option.bind_eq_bind, Option.bind_some, hfrom, Option.pure_def]
      · intro now hnow
        cases hnow

theorem transferIdentifierToSpark_ends {principal : InternalPrincipal}
    {body : Option InternalTransferToSparkRequest} (going : Going i none h) :
    RouteEnds state i (.transferIdentifierToSpark principal body)
      (transferIdentifierToSpark state principal body) (fun _ _ => True) h := by
  simp only [transferIdentifierToSpark, Prog.bind_eq, Prog.pure_eq]
  refine ofExcept_bind going fun _ _ => ofExcept_bind going fun _ _ => ?_
  refine ofExcept_bind going fun payload hbody => ?_
  have hsome : body = some payload := by
    cases body with
    | none => cases hbody
    | some p =>
        cases hbody
        rfl
  subst hsome
  refine ofExcept_bind going fun domain hdomain => ofExcept_bind going fun parsed _ => ?_
  refine ofExcept_bind going fun destination hdestination => ofExcept_bind going fun pk hpk => ?_
  refine ofExcept_bind going fun _ _ => ?_
  have htrim : destination = RustStr.trim payload.destinationSparkPubkey := by
    simp only [validateInternalRequiredString] at hdestination
    split at hdestination
    · cases hdestination
    · cases hdestination
      rfl
  have hparsed :
      parsePubkey state.crates (RustStr.trim payload.destinationSparkPubkey) = .ok pk := by
    rw [← htrim]
    cases hp : parsePubkey state.crates destination with
    | error e =>
        rw [hp] at hpk
        cases hpk
    | ok p =>
        rw [hp] at hpk
        cases hpk
        rfl
  refine harmless_bind going (Prog.calls_mapError.mpr (calls_account trivial)) fun _ h going => ?_
  refine ofExcept_bind going fun source _ => require_bind going fun _ => ?_
  refine write_bind going (fun h' _ _ => ⟨trivial, ?_, ?_, ?_⟩) fun _ _ _ =>
    attempt_ret (calls_account trivial)
  · exact fun _ => .migratedTo hdomain hparsed rfl rfl rfl
  · intro claim hclaim
    cases hclaim
  · intro now hnow
    cases hnow

theorem pruneSignedMessages_ends {q : Request} :
    RouteEnds state i q pruneSignedMessages (fun _ _ => True) h := by
  simp only [pruneSignedMessages, now, env, Prog.bind_eq, Prog.pure_eq]
  refine Contract.wp_bind.mpr (Contract.wp_bind.mpr (Contract.wp_call.mpr ?_))
  intro h₁ _ _
  refine ⟨fun op hop => (by cases hop), ?_⟩
  intro ch reading s' hexec _ _
  have hreading : (reading : Int) = s'.clock.secs := by
    have hread : exec (.env .nowU64) ch h₁.state = some (reading, s') := hexec
    obtain ⟨rfl, hanswer⟩ := exec_env hread
    exact congrArg _ (Option.some.inj hanswer).symm
  refine Contract.wp_ret.mpr (Contract.wp_ret.mpr (Contract.wp_bind.mpr (Contract.wp_attempt.mpr
    (Contract.wp_call.mpr ?_))))
  -- the clock may have moved on since it was read
  intro h₂ hrely _
  have hclock : s'.clock.secs ≤ h₂.state.clock.secs := hrely.clock
  refine ⟨fun op hop => ?_, ?_⟩
  · cases hop
    refine ⟨trivial, trivial, fun _ hc => (by cases hc), fun n hn => ?_⟩
    cases hn
    rw [hreading]
    exact_mod_cast hclock
  · intro ch r s'' _ _ _
    exact Contract.wp_ofExcept.mpr (Contract.wp_ret.mpr trivial)

/-- What the handlers end in. -/
def accountPost (state : State) (i : Nat) (q : Request) (h : History)
    (r : Except ApiError Response) : Prop :=
  Ends i (fun h response => ∀ host pubkey payload address, q = .register host pubkey payload →
    response = .address address → RegisteredLast state i host pubkey payload h address) h r

theorem mapped {q : Request} {α : Type} {p : Handler α} {f : α → Response}
    (hq : ∀ host pubkey payload, q ≠ .register host pubkey payload)
    (hp : RouteEnds state i q p (fun _ _ => True) h) :
    (accountContract state).wp semantics always i q (p.bind fun a => .ret (f a))
      (accountPost state i q) h := by
  refine Contract.wp_bind.mpr (Contract.wp_mono ?_ hp)
  intro h r hends
  cases r with
  | ok a =>
      refine Contract.wp_ret.mpr fun host pubkey payload address heq => ?_
      exact absurd heq (hq host pubkey payload)
  | error e => exact hends

/-- Every handler keeps to the contract. -/
theorem handler_ends {q : Request} (going : Going i none h) :
    (accountContract state).wp semantics always i q (handler state q)
    (accountPost state i q) h := by
  by_cases haccount : q.IsAccountRequest
  · cases q with
    | register host pubkey payload =>
        refine Contract.wp_bind.mpr (Contract.wp_mono ?_ (register_ends going))
        intro h r hends
        cases r with
        | ok a =>
            refine Contract.wp_ret.mpr fun host' pubkey' payload' address hq hr => ?_
            cases hq
            cases hr
            exact hends
        | error e => exact hends
    | transfer host toPubkey payload =>
        exact mapped (fun _ _ _ hq => nomatch hq) (transfer_ends going)
    | unregister host pubkey payload =>
        exact mapped (fun _ _ _ hq => nomatch hq) (unregister_ends going)
    | setMode host pubkey payload =>
        exact mapped (fun _ _ _ hq => nomatch hq) (harmless going
          (calls_setMode (fun _ => Or.inl trivial) (fun _ => Or.inl trivial)
            (fun _ => Or.inl trivial)
            (fun _ => Or.inl trivial) fun _ => Or.inl trivial))
    | transferIdentifierToSpark principal body =>
        exact mapped (fun _ _ _ hq => nomatch hq) (transferIdentifierToSpark_ends going)
    | createInternalBlinkAccount principal payload =>
        exact mapped (fun _ _ _ hq => nomatch hq)
          (harmless going (calls_createInternalBlinkAccount (fun _ => Or.inl trivial)
            fun _ => Or.inl trivial))
    | updateInternalBlinkAccount principal id body =>
        exact mapped (fun _ _ _ hq => nomatch hq)
          (harmless going (calls_updateInternalBlinkAccount fun _ _ => Or.inl trivial))
    | pruneSignedMessages => exact mapped (fun _ _ _ hq => nomatch hq) pruneSignedMessages_ends
    | refreshCountryEvidence pubkey =>
        exact mapped (fun _ _ _ hq => nomatch hq)
          (harmless going (calls_refreshCountryEvidence (fun _ => Or.inl trivial)
            fun _ => Or.inl trivial))
    | _ => exact absurd haccount (by unfold Request.IsAccountRequest; exact id)
  · have hends : RouteEnds state i q (handler state q) (fun _ _ => True) h :=
      harmless going ((calls_handler_onPayments haccount).mono fun _ hc => Or.inr hc)
    refine Contract.wp_mono ?_ hends
    intro h r hr
    cases r with
    | ok a =>
        intro host pubkey payload address hq _
        subst hq
        exact absurd trivial haccount
    | error e => exact hr

end Routes

theorem account_outline (state : State) :
    Outline (accountContract state) semantics always (handler state) (accountPost state) where
  lawful := accountContract_lawful
  post_stable := fun {i q h h' r} hrely _ hpost => by
    cases r with
    | error e =>
        have hquiet : Quiet i h := hpost
        show Quiet i h'
        unfold Quiet
        rw [hrely.callsOf]
        exact hquiet
    | ok a =>
        intro host pubkey payload address hq hr
        obtain ⟨signed, username, authorization, hs, hu, ha, hlast⟩ :=
          hpost host pubkey payload address hq hr
        exact ⟨signed, username, authorization, hs, hu, ha, by rw [hrely.callsOf]; exact hlast⟩
  accept := fun {i q h} _ hbound => by
    refine handler_ends ⟨fun ev hev => ?_, fun _ hts => (nomatch hts)⟩
    -- thread `i` has made no call yet
    obtain ⟨hmem, hi⟩ := Hist.mem_callsOf.mp hev
    exact absurd (hbound ev hmem) (by omega)

theorem accounts_initial (state : State) (clock : Clock) :
    (accountContract state).inv ⟨World.fresh clock, []⟩ := RepInv.empty

end BlinkLnurl
