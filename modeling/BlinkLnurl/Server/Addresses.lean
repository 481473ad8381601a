import BlinkLnurl.Server.Ownership

/-!
# Which registered addresses can be paid

A register that succeeds answers with `u@d`. Public discovery and the invoice
callback read the identifier with another parser than the register route, one
that looks for phone numbers first; on canonical usernames the two differ
exactly on those that begin with `00` (`parsePublicIdentifier_username`).

The answer of a register is sent right after its last call, so "the resulting
state" is the one after the step with which the request ends.
-/

namespace BlinkLnurl

open Conc Rel AccountStore

/-! ## Public identifiers -/

/-- `username` on `domain` is read as that username, without a wallet, and
leads to the account of `pubkey`: whatever the public routes look up in `w`
ends at this recipient, unless the lookup itself fails. -/
structure PaysTo (state : State) (w : World) (domain username pubkey : String) : Prop where
  parsed : parsePublicIdentifier state.crates.caseProperties state.crates.phoneNumbers username =
    .ok ⟨username, .username, none⟩
  resolved : ∃ recipient : ResolvedRecipient,
    w.accounts.resolveRecipientByIdentifier domain username = .ok (some recipient) ∧
    recipient.identifierKind = .username ∧ recipient.sparkPubkey = some pubkey ∧
    ∀ {missing : ApiError} {i : Nat} {h h' : History} {res : Except ApiError PublicRecipient},
      h.state = w →
      Runs semantics always i (publicRecipient state.crates domain username missing) h res h' →
        res = .ok ⟨recipient, none, username⟩ ∨ res = .error (.lnurlError "internal server error")

section

variable {crates : Crates} {domain username : String} {missing : ApiError}

/-- A username that is read as itself is looked up under its own name. -/
theorem publicRecipient_eq
    (hparse : parsePublicIdentifier crates.caseProperties crates.phoneNumbers username =
      .ok ⟨username, .username, none⟩) (hu : Username username) :
    publicRecipient crates domain username missing =
      .call (.account (.resolveRecipientByIdentifier domain username)) fun r =>
        match r with
        | .ok (some recipient) => .ret ⟨recipient, none, username⟩
        | .ok none => .fail missing
        | .error _ => .fail (.lnurlError "internal server error") := by
  have hroute : parsePublicIdentifierForPublicRoute crates username =
      .ok (some ⟨username, none, username⟩) := by
    unfold parsePublicIdentifierForPublicRoute
    simp only [hu.trim_eq, hu.ne_empty, if_false, hparse]
    rfl
  unfold publicRecipient
  rw [hroute]
  simp only [resolvePublicRecipient, Store.account, Except.mapError, Prog.ofExcept, Prog.bind_eq,
    Prog.pure_eq, Prog.ret_bind, Prog.mapError, Prog.call_bind, Prog.call.injEq, heq_eq_eq,
    true_and]
  funext r
  cases r with
  | error e => rfl
  | ok found =>
      cases found with
      | none => rfl
      | some recipient => rfl

/-- The lookup of a stored Spark username, undisturbed. -/
theorem publicRecipient_runs {recipient : ResolvedRecipient} (hu : Username username)
    (hparse : parsePublicIdentifier crates.caseProperties crates.phoneNumbers username =
      .ok ⟨username, .username, none⟩)
    {i : Nat} {h h' : History} {res : Except ApiError PublicRecipient}
    (hresolve : h.state.accounts.resolveRecipientByIdentifier domain username =
      .ok (some recipient))
    (hruns : Runs semantics always i (publicRecipient crates domain username missing) h res h') :
    res = .ok ⟨recipient, none, username⟩ ∨ res = .error (.lnurlError "internal server error") := by
  generalize hp : publicRecipient crates domain username missing = p at hruns
  have heq : publicRecipient crates domain username missing = _ := publicRecipient_eq hparse hu
  induction hruns with
  | ret =>
      rw [heq] at hp
      cases hp
  | fail =>
      rw [heq] at hp
      cases hp
  | tick htick _ ih =>
      -- the clock is no part of what is looked up
      refine ih ?_ hp
      rw [(tick_cases htick).1]
      exact hresolve
  | call hexec _ hrest =>
      rw [heq] at hp
      cases hp
      rcases execAccount_cases hexec with ⟨_, e, rfl⟩ | ⟨a, accounts, rfl, hrun, _⟩
      · exact Or.inr (hrest.result rfl)
      · simp only [AccountOp.run, hresolve] at hrun
        cases hrun
        exact Or.inl (hrest.result rfl)

end

/-! ## The state a registration leaves -/

/-- After a registration the name resolves to the account of the pubkey. -/
theorem resolve_of_registers {s s' : AccountStore} {registration : NewSparkRegistration}
    {row : AccountIdentifier} (inv : RepInv s) (reg : Registers s s' registration row) :
    ∃ recipient : ResolvedRecipient,
      s'.resolveRecipientByIdentifier registration.identifier.domain
        registration.identifier.identifier = .ok (some recipient) ∧
      recipient.identifierKind = .username ∧ recipient.sparkPubkey = some registration.pubkey := by
  have inv' : RepInv s' := inv.assigns reg.ensures reg.assigns
  have hrow : row ∈ s'.accountIdentifiers := (reg.assigns row).mpr (Or.inl rfl)
  obtain ⟨recipient, hresolve, _, _, _, hkind, _, hspark⟩ := resolve_of_mem inv' hrow
  refine ⟨recipient, ?_, hkind.trans reg.kind, (hspark _).mpr reg.ensures.hasSpark⟩
  rw [← reg.domain, ← reg.identifier]
  exact hresolve

/-- The step with which a register ends well is its registration. -/
theorem register_step {state : State} {clock : Clock} {cfg cfg' : Server}
    (hreach : Reachable semantics always (handler state) (World.fresh clock) cfg)
    (hstep : Step semantics always (handler state) cfg cfg') {i : Nat} {host : Host}
    {pubkey : String} {payload : RegisterLnurlPayRequest} {address : LightningAddress}
    (hrequest : cfg'.request i = some (.register host pubkey payload))
    (hrunning : cfg.outcome i = none) (hdone : cfg'.outcome i = some (.ok (.address address))) :
    ∃ signed username authorization row,
      parseSignedRequest state.crates pubkey payload.signature = .ok signed ∧
      canonicalSparkUsernameForRoute state.crates payload.username = .ok username ∧
      address = lightningAddressOf username (hostDomain state.crates host) ∧
      RepInv cfg.hist.state.accounts ∧
      Registers cfg.hist.state.accounts cfg'.hist.state.accounts
        (newRegistration state.crates signed.1 (hostDomain state.crates host) username
          payload authorization) row := by
  have outlined := hreach.sound (account_outline state) (accounts_initial state clock)
  have outlined' := (account_outline state).step outlined hstep
  obtain ⟨_, hq, hpost⟩ := outlined'.finished hdone
  cases hq.symm.trans hrequest
  obtain ⟨signed, username, authorization, hs, hu, ha, hlast⟩ :=
    hpost host pubkey payload address rfl rfl
  cases hstep with
  | accept q =>
      -- the registration is in the log, so the thread was there before
      have hi : i < cfg.threads.length :=
        outlined.bound _ (Hist.mem_callsOf.mp (List.mem_of_getLast? hlast)).1
      rw [Config.outcome, List.getElem?_append_left hi] at hdone
      rw [Config.outcome, hdone] at hrunning
      cases hrunning
  | tick htick =>
      have hdone₀ : cfg.outcome i = some (.ok (.address address)) := hdone
      rw [hdone₀] at hrunning
      cases hrunning
  | @call j q c k ch r s' hth hexec hok =>
      by_cases hij : j = i
      · subst hij
        rw [Hist.callsOf_push_self, List.getLast?_concat] at hlast
        cases hlast
        rcases execAccount_cases hexec with ⟨_, e, hr⟩ | ⟨a, accounts, _, hrun, rfl, hfresh⟩
        · cases hr
        · obtain ⟨row, reg⟩ :=
            @AccountOp.run_effect _ _ _ outlined.inv hfresh (.upsertSparkRegistration _) _
              (by exact rfl) hrun
          exact ⟨signed, username, authorization, row, hs, hu, ha, outlined.inv, reg⟩
      · rw [Config.outcome, List.getElem?_set_ne hij] at hdone
        rw [Config.outcome, hdone] at hrunning
        cases hrunning

/-- An address that a register answers with can be paid, at once and to the
registering key, if and only if its username does not begin with `00`. -/
theorem registered_address_payable_iff (state : State) {clock : Clock} {cfg cfg' : Server}
    (hreach : Reachable semantics always (handler state) (World.fresh clock) cfg)
    (hstep : Step semantics always (handler state) cfg cfg') {i : Nat} {host : Host}
    {pubkey : String} {payload : RegisterLnurlPayRequest} {address : LightningAddress}
    (hrequest : cfg'.request i = some (.register host pubkey payload))
    (hrunning : cfg.outcome i = none) (hdone : cfg'.outcome i = some (.ok (.address address))) :
    ∃ signed username,
      parseSignedRequest state.crates pubkey payload.signature = .ok signed ∧
      canonicalSparkUsernameForRoute state.crates payload.username = .ok username ∧
      address = lightningAddressOf username (hostDomain state.crates host) ∧
      (PaysTo state cfg'.hist.state (hostDomain state.crates host) username
        signed.1.hex ↔ startsWith "00" username = false) := by
  obtain ⟨signed, username, authorization, row, hs, husername, ha, inv, reg⟩ :=
    register_step hreach hstep hrequest hrunning hdone
  refine ⟨signed, username, hs, husername, ha, ?_⟩
  have htext : isUsernameText username = true :=
    checkedToUsername_ok (canonicalSparkUsernameForRoute_ok husername)
  have hparse := @parsePublicIdentifier_username state.crates.caseProperties
    state.crates.phoneNumbers username htext
  constructor
  · intro pays
    have hparsed := hparse.symm.trans pays.parsed
    cases h00 : startsWith "00" username with
    | false => rfl
    | true =>
        -- what the parser finds is a phone number, or nothing
        rw [if_pos h00] at hparsed
        cases hphone : checkedToPhoneNumber state.crates.phoneNumbers username with
        | error e =>
            rw [hphone] at hparsed
            cases hparsed
        | ok phone =>
            rw [hphone] at hparsed
            cases hparsed
  · intro h00
    rw [if_neg (by rw [h00]; decide)] at hparse
    obtain ⟨recipient, hresolve, hkind, hspark⟩ := resolve_of_registers inv reg
    refine ⟨hparse, recipient, hresolve, hkind, hspark, ?_⟩
    intro missing j h h' res hw hruns
    rw [← hw] at hresolve
    exact publicRecipient_runs (isUsernameText_username htext) hparse hresolve hruns

/-! ## Examples

`alice` can be paid; `00alice` is registered as well, and the public routes
take it for a phone number. -/

section Example

open Deployment Schedule

def addressSigned : Deployment :=
  { keys := [ownerKey]
    signed := [(ownerKey, "alice-1000"), (ownerKey, "00alice-1000")] }

def registers (username : String) : Request :=
  .register blinkHost ownerKey.hex ⟨username, "3006020101020101", 1000, "Pay to " ++ username⟩

/-- Up to the last call of the register. -/
def untilRegistration (username : String) : Schedule := serve (registers username) ++ calls 0 3

theorem registered_run {username : String}
    (hrunning : (addressSigned.run always 1000000 (by decide) (untilRegistration username)).any
      (fun cfg => cfg.outcome 0 = none) = true)
    (hdone : (addressSigned.run always 1000000 (by decide)
      (untilRegistration username ++ [.call 0 (Answers.choice {})])).any
      (fun cfg => cfg.outcome 0 = some (.ok (.address (lightningAddressOf username "d.io")))) =
      true) :
    ∃ cfg cfg' : Server,
      Reachable semantics always (handler addressSigned.state)
        (World.fresh ⟨1000000, by decide⟩) cfg ∧
      Step semantics always (handler addressSigned.state) cfg cfg' ∧
      cfg'.request 0 = some (registers username) ∧ cfg.outcome 0 = none ∧
      cfg'.outcome 0 = some (.ok (.address (lightningAddressOf username "d.io"))) := by
  obtain ⟨cfg, cfg', hreach, hstep, hserved, hrunning, hdone⟩ :=
    addressSigned.step_of_run always 1000000 (by decide) (untilRegistration username)
      (.call 0 (Answers.choice {})) _ _ hrunning hdone
  exact ⟨cfg, cfg', hreach, hstep, hserved 0, of_decide_eq_true hrunning, of_decide_eq_true hdone⟩

theorem registered_address_payable_iff_alice :
    ∃ cfg : Server, PaysTo addressSigned.state cfg.hist.state "d.io" "alice" ownerKey.hex := by
  obtain ⟨cfg, cfg', hreach, hstep, hrequest, hrunning, hdone⟩ :=
    @registered_run "alice" (by decide +kernel) (by decide +kernel)
  obtain ⟨signed, username, hs, hu, _, hiff⟩ :=
    registered_address_payable_iff addressSigned.state hreach hstep hrequest hrunning hdone
  have hsigned : parseSignedRequest addressSigned.crates ownerKey.hex "3006020101020101" =
      .ok (ownerKey, ⟨[48, 6, 2, 1, 1, 2, 1, 1]⟩) := by decide +kernel
  have husername : canonicalSparkUsernameForRoute addressSigned.crates "alice" = .ok "alice" := by
    decide +kernel
  have hkey : signed = (ownerKey, ⟨[48, 6, 2, 1, 1, 2, 1, 1]⟩) :=
    Except.ok.inj (hs.symm.trans hsigned)
  have hname : username = "alice" := Except.ok.inj (hu.symm.trans husername)
  subst hkey
  subst hname
  exact ⟨cfg', hiff.mpr (by decide)⟩

/-- `00alice@d.io` is answered to its owner and cannot be paid: the public
routes find no such user. -/
theorem registered_00alice_not_payable :
    ∃ cfg cfg' : Server,
      Reachable semantics always (handler addressSigned.state)
        (World.fresh ⟨1000000, by decide⟩) cfg ∧
      Step semantics always (handler addressSigned.state) cfg cfg' ∧
      cfg'.request 0 = some (registers "00alice") ∧ cfg.outcome 0 = none ∧
      cfg'.outcome 0 = some (.ok (.address (lightningAddressOf "00alice" "d.io"))) ∧
      ¬ PaysTo addressSigned.state cfg'.hist.state "d.io" "00alice" ownerKey.hex ∧
      ∀ missing, publicRecipient addressSigned.crates "d.io" "00alice" missing =
        .fail (.notFound "") := by
  obtain ⟨cfg, cfg', hreach, hstep, hrequest, hrunning, hdone⟩ :=
    @registered_run "00alice" (by decide +kernel) (by decide +kernel)
  refine ⟨cfg, cfg', hreach, hstep, hrequest, hrunning, hdone, ?_, fun _ => ?_⟩
  · intro pays
    exact absurd pays.parsed (by decide +kernel)
  · have hroute :
        parsePublicIdentifierForPublicRoute addressSigned.crates "00alice" = .ok none := by
      decide +kernel
    unfold publicRecipient
    rw [hroute]
    rfl

end Example

end BlinkLnurl
