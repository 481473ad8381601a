import BlinkLnurl.Server.AccountContract

/-!
# A Spark name leaves its owner only with the owner's consent

The argument is local to one call. An operation within `Permits` takes no name
from anybody but those on whose behalf it writes (`released_of_lost`), and every
route that writes is within `Permits` when it does (`handler_ends`). What the
owner has signed names the operation in full: for a transfer both of its keys.
-/

namespace BlinkLnurl

open Conc Rel AccountStore

/-- The key of the Spark account a name resolves to. -/
def AccountStore.ownerOf (s : AccountStore) (domain username : String) : Option String :=
  match s.resolveRecipientByIdentifier domain username with
  | .ok recipient => recipient.bind ResolvedRecipient.sparkPubkey
  | .error _ => none

def AccountStore.OwnedBy (s : AccountStore) (domain username pubkey : String) : Prop :=
  s.ownerOf domain username = some pubkey

instance (s : AccountStore) (domain username pubkey : String) :
    Decidable (s.OwnedBy domain username pubkey) := by
  unfold AccountStore.OwnedBy
  infer_instance

theorem ownedBy_iff {s : AccountStore} (inv : RepInv s) {domain username pubkey : String} :
    s.OwnedBy domain username pubkey ↔
      ∃ x ∈ s.accountIdentifiers, x.domain = domain ∧ x.identifier = username ∧
        s.HasSpark x.accountId pubkey := by
  unfold OwnedBy ownerOf
  constructor
  · intro howned
    rcases resolve_cases inv domain username with hnone | ⟨x, hx, hd, hu, r, hr, _, _, _, hspark⟩
    · rw [hnone] at howned
      cases howned
    · rw [hr] at howned
      exact ⟨x, hx, hd, hu, (hspark pubkey).mp howned⟩
  · intro ⟨x, hx, hd, hu, hspark⟩
    obtain ⟨r, hr, _, _, _, _, _, hpk⟩ := resolve_of_mem inv hx
    subst hd
    subst hu
    rw [hr]
    exact (hpk pubkey).mpr hspark

/-! ## What an operation can take -/

section Loss

variable {s s' : AccountStore} {state : State} {q : Request} {gid domain username owner : String}

/-- An assignment takes a row of another key only from the account it is for. -/
theorem sameAccount_of_assigns {row x : AccountIdentifier}
    (assigns : Assigns s.accountIdentifiers s'.accountIdentifiers row)
    (hx : x ∈ s.accountIdentifiers) (hkey : Keyed.key x ≠ Keyed.key row)
    (hgone : x ∉ s'.accountIdentifiers) :
    x.accountId = row.accountId ∧ x.domain = row.domain ∧ x.identifier ≠ row.identifier := by
  have hsame : x.accountId = row.accountId ∧ x.domain = row.domain ∧
      x.identifierKind = .username := by
    by_contra hno
    exact hgone ((assigns x).mpr (Or.inr ⟨hx, hkey, hno⟩))
  refine ⟨hsame.1, hsame.2.1, fun hid => hkey ?_⟩
  show (x.domain, x.identifier) = (row.domain, row.identifier)
  rw [hsame.2.1, hid]

/-- The key lemma: an operation that a request may run takes a name only from
who released it. -/
theorem released_of_lost {op : AccountOp} (inv : RepInv s) (effect : op.Effect s s' gid)
    (permits : Permits state q s op) (howned : s.OwnedBy domain username owner)
    (hlost : ¬ s'.OwnedBy domain username owner) :
    ReleasedBy state s domain username owner q op := by
  have inv' : RepInv s' := effect.inv inv
  obtain ⟨x, hx, hd, hu, hspark⟩ := (ownedBy_iff inv).mp howned
  have hspark' : s'.HasSpark x.accountId owner := effect.hasSpark hspark
  -- a row with the key of `x` and its account would still be owned
  have hgone : ∀ y ∈ s'.accountIdentifiers, y.domain = domain → y.identifier = username →
      y.accountId ≠ x.accountId := by
    intro y hy hyd hyu hacc
    exact hlost ((ownedBy_iff inv').mpr ⟨y, hy, hyd, hyu, hacc ▸ hspark'⟩)
  have hx' : x ∉ s'.accountIdentifiers := fun hmem => hgone x hmem hd hu rfl
  have upkeep : Upkeep s s' gid → ReleasedBy state s domain username owner q op := by
    intro h
    rw [h.identifiers] at hx'
    exact absurd hx hx'
  subst hd
  subst hu
  cases op with
  | upsertSparkRegistration registration =>
      obtain ⟨row, reg⟩ := effect
      by_cases hkey : Keyed.key x = Keyed.key row
      · have hrow : row ∈ s'.accountIdentifiers := (reg.assigns row).mpr (Or.inl rfl)
        have hpair : (x.domain, x.identifier) = (row.domain, row.identifier) := hkey
        obtain ⟨hrd, hri⟩ := Prod.mk.inj hpair
        exact absurd (reg.own x hx hkey).symm (hgone row hrow hrd.symm hri.symm)
      · obtain ⟨hacc, hdom, hne⟩ := sameAccount_of_assigns reg.assigns hx hkey hx'
        have hpk : owner = registration.pubkey :=
          HasSpark.pubkey_unique hspark' (hacc ▸ reg.ensures.hasSpark)
        rw [hdom, reg.domain, hpk]
        exact permits _ (reg.identifier ▸ hne)
  | deleteSparkRegistration d pubkey u claim =>
      obtain ⟨⟨row, rel⟩, _⟩ := effect
      have hrow : x = row := by
        by_contra hne
        exact hx' ((rel.identifiers x).mpr ⟨hx, hne⟩)
      subst hrow
      rw [rel.domain, rel.identifier, HasSpark.pubkey_unique hspark rel.owner]
      exact permits
  | transferIdentifier t =>
      obtain ⟨⟨row, handsOver⟩, _, _⟩ := effect
      obtain ⟨⟨source, hsource, hreleased⟩, hothers⟩ := permits
      by_cases hkey : Keyed.key x = Keyed.key row
      · obtain ⟨y, hy, hykey, hyacc, _⟩ := handsOver.taken
        have hxy : x = y := Table.eq_of_key hx hy (hkey.trans hykey.symm)
        have hpair : (x.domain, x.identifier) = (row.domain, row.identifier) := hkey
        obtain ⟨hrd, hri⟩ := Prod.mk.inj hpair
        have hpk : owner = source := HasSpark.pubkey_unique hspark (hxy ▸ hyacc ▸ hsource)
        rw [hrd, hri, handsOver.domain, handsOver.identifier, hpk]
        exact hreleased
      · obtain ⟨hacc, hdom, hne⟩ := sameAccount_of_assigns handsOver.assigns hx hkey hx'
        have hpk : owner = t.destinationSparkPubkey :=
          HasSpark.pubkey_unique hspark' (hacc ▸ handsOver.ensures.hasSpark)
        rw [hdom, handsOver.domain, hpk]
        exact hothers _ (handsOver.identifier ▸ hne)
  | transferBlinkIdentifierToSpark t =>
      obtain ⟨⟨row, handsOver⟩, hblink, _⟩ := effect
      by_cases hkey : Keyed.key x = Keyed.key row
      · -- the source is a Blink account, so it holds no name of a Spark key
        obtain ⟨y, hy, hykey, hyacc, _⟩ := handsOver.taken
        have hxy : x = y := Table.eq_of_key hx hy (hkey.trans hykey.symm)
        have hprov : s.HasProvider t.sourceAccountId .spark :=
          inv.spark_provider (hyacc ▸ hxy ▸ hspark)
        exact absurd (HasProvider.unique hprov hblink) (by decide)
      · obtain ⟨hacc, hdom, _⟩ := sameAccount_of_assigns handsOver.assigns hx hkey hx'
        have hpk : owner = t.destinationSparkPubkey :=
          HasSpark.pubkey_unique hspark' (hacc ▸ handsOver.ensures.hasSpark)
        rw [hdom, handsOver.domain, hpk]
        exact permits _
  | createBlinkAccount account =>
      obtain ⟨⟨id, opens⟩, _⟩ := effect
      exact absurd (opens.identifiers x hx) hx'
  | deleteExpiredSignedMessages now =>
      have hs' : s' = (s.deleteExpiredSignedMessages now).2 := effect
      subst hs'
      exact absurd hx hx'
  | getSparkAccountMode => exact upkeep effect
  | getAccountBySparkPubkey => exact upkeep effect
  | resolveRecipientByIdentifier => exact upkeep effect
  | updateBlinkDefaultWallet => exact upkeep effect
  | setSparkModeEnhancedIfUnset => exact upkeep effect
  | refreshSparkCountryEvidence => exact upkeep effect
  | sparkAccountIdByPubkey => exact upkeep effect
  | insertSparkAccount => exact upkeep effect
  | updateSparkMode => exact upkeep effect

end Loss

/-! ## The theorem -/

/-- In every run of the server, a step after which a name is no longer its
Spark owner's was the operation that a message of the request was for, and the owner
signed that message; or it was an internal transfer to the owner. -/
theorem name_leaves_only_by_consent (state : State) {clock : Clock} {cfg cfg' : Server}
    (hreach : Reachable semantics always (handler state) (World.fresh clock) cfg)
    (hstep : Step semantics always (handler state) cfg cfg') {domain username owner : String}
    (howned : cfg.hist.state.accounts.OwnedBy domain username owner)
    (hlost : ¬ cfg'.hist.state.accounts.OwnedBy domain username owner) :
    ∃ i q prog prog' op result, cfg.threads[i]? = some ⟨q, prog⟩ ∧
      cfg'.threads = cfg.threads.set i ⟨q, prog'⟩ ∧
      cfg'.hist.log = cfg.hist.log ++ [⟨i, .account op, .ok result⟩] ∧
      ReleasedBy state cfg.hist.state.accounts domain username owner q op := by
  have outlined := hreach.sound (account_outline state) (accounts_initial state clock)
  cases hstep with
  | accept q => exact absurd howned hlost
  | tick htick =>
      rw [(tick_cases htick).1] at hlost
      exact absurd howned hlost
  | @call i q c k ch r s' hth hexec hok =>
      have hguard := outlined.guard accountContract_lawful.toKeeps hth
      rcases exec_accounts hexec with hsame | ⟨op, rfl⟩
      · rw [Hist.push_state, hsame] at hlost
        exact absurd howned hlost
      · have may := hguard op rfl
        rcases execAccount_cases hexec with ⟨rfl, _⟩ | ⟨a, accounts, rfl, hrun, rfl, hfresh⟩
        · exact absurd howned hlost
        · refine ⟨i, q, _, _, op, a, hth, rfl, rfl, ?_⟩
          exact released_of_lost outlined.inv
            (AccountOp.run_effect outlined.inv hfresh may.byPubkey hrun) may.permits
            howned hlost

/-! A key registers `alice` and unregisters it. -/

section Example

open Deployment Schedule

def ownerSigned : Deployment :=
  { keys := [ownerKey]
    signed := [(ownerKey, "alice-1000"),
      (ownerKey, "breez-lnurl:v2\nunregister\nd.io\nalice\n1000")] }

def registersAlice : Request :=
  .register blinkHost ownerKey.hex ⟨"alice", "3006020101020101", 1000, "Pay to alice@d.io"⟩

def unregistersAlice : Request :=
  .unregister blinkHost ownerKey.hex ⟨"alice", "3006020101020101", 1000⟩

/-- `alice` is registered, and the unregister is about to delete it. -/
def beforeRelease : Schedule :=
  serve registersAlice ++ calls 0 4 ++
    serve unregistersAlice ++ calls 1 3 { generatedId := "acct_2" }

theorem name_leaves_only_by_consent_unregister :
    ∃ cfg cfg' : Server, cfg.hist.state.accounts.OwnedBy "d.io" "alice" ownerKey.hex ∧
      ¬ cfg'.hist.state.accounts.OwnedBy "d.io" "alice" ownerKey.hex ∧
      ∃ i q prog prog' op result, cfg.threads[i]? = some ⟨q, prog⟩ ∧
        cfg'.threads = cfg.threads.set i ⟨q, prog'⟩ ∧
        cfg'.hist.log = cfg.hist.log ++ [⟨i, .account op, .ok result⟩] ∧
        ReleasedBy ownerSigned.state cfg.hist.state.accounts "d.io" "alice" ownerKey.hex q op := by
  obtain ⟨cfg, cfg', hreach, hstep, _, howned, hlost⟩ :=
    ownerSigned.step_of_run always 1000000 (by decide)
    beforeRelease (.call 1 (Answers.choice { generatedId := "acct_2" }))
    (fun cfg => cfg.hist.state.accounts.OwnedBy "d.io" "alice" ownerKey.hex)
    (fun cfg => ¬ cfg.hist.state.accounts.OwnedBy "d.io" "alice" ownerKey.hex)
    (by decide +kernel) (by decide +kernel)
  simp only [decide_eq_true_eq] at howned hlost
  exact ⟨cfg, cfg', howned, hlost,
    name_leaves_only_by_consent ownerSigned.state hreach hstep howned hlost⟩

end Example

end BlinkLnurl
