import BlinkLnurl.Repository.AddressBook
import BlinkLnurl.Server.Transfers

/-!
# The server keeps a book of addresses

Account operations run one at a time in the store, however the requests that make
them interleave. Each that commits is at most one change of the book of addresses,
and a change that was possible; so in every run the stored addresses are what the
committed operations of the log leave of an empty book, in their order, and a
look-up answers what that book says at its place in the log.
-/

namespace BlinkLnurl

open Conc Rel AccountStore Names

/-- What the operation does to the book when it commits. -/
def AccountOp.change : AccountOp → Option (Change String String Payee)
  | .upsertSparkRegistration registration =>
      some (.claim (registration.identifier.domain, registration.identifier.identifier)
        (.spark registration.pubkey))
  | .deleteSparkRegistration domain pubkey identifier _ =>
      some (.release (domain, identifier) (.spark pubkey))
  | .transferIdentifier transfer =>
      some (.handOver (transfer.domain, transfer.identifier)
        (.spark transfer.destinationSparkPubkey))
  | .transferBlinkIdentifierToSpark transfer =>
      some (.handOver (transfer.domain, transfer.identifier)
        (.spark transfer.destinationSparkPubkey))
  | .createBlinkAccount account =>
      some (.enrol (.blink account.blinkAccountId) (account.identifiers.map fun ident =>
        ((ident.domain, ident.identifier), decide (ident.identifierKind = .username))))
  | _ => none

/-- The change a call has made. -/
def addressChange : CallEvent → Option (Change String String Payee)
  | ⟨_, .account op, .ok _⟩ => op.change
  | _ => none

/-- The payee a look-up answers with. -/
def ResolvedRecipient.payee (r : ResolvedRecipient) : Option Payee :=
  match r.provider with
  | .spark => r.sparkPubkey.map .spark
  | .blink => r.blinkAccountId.map .blink

/-- The entry a look-up answers with. -/
def ResolvedRecipient.entry (r : ResolvedRecipient) : Option (Entry Payee) :=
  r.payee.map fun payee => ⟨payee, r.identifierKind = .username⟩

section Step

variable {ctx : Ctx} {s s' : AccountStore}

theorem addressBook_handOver {domain identifier source destination : String}
    (inv : RepInv s) (inv' : RepInv s') (hblink : s'.blinkAccounts = s.blinkAccounts)
    (h : ∃ row, HandsOver s s' domain identifier source destination row) :
    Step s.addressBook (.handOver (domain, identifier) (.spark destination)) s'.addressBook := by
  obtain ⟨row, hands⟩ := h
  have keeps := KeepsPayees.ensures hands.ensures (hasBlinkId_of_rows hblink)
  rw [addressBook_assigns inv inv' keeps hands.ensures.hasSpark hands.assigns]
  have hkey : Keyed.key row = (domain, identifier) := Prod.ext hands.domain hands.identifier
  obtain ⟨x, hx, hxkey, _, hkind⟩ := hands.taken
  -- the name was held before, with the kind it keeps
  cases he : s.addressBook (domain, identifier) with
  | none => exact absurd (hxkey.trans hkey) ((addressBook_eq_none inv).mp he x hx)
  | some e =>
      obtain ⟨y, hy, hykey, _, hprimary⟩ := (addressBook_eq_some inv).mp he
      obtain rfl := Table.eq_of_key hx hy (hxkey.trans (hkey.trans hykey.symm))
      have hsame : decide (row.identifierKind = .username) = e.primary := by
        rw [hprimary, hkind]
      rw [hkey, hsame]
      exact .handOver he

/-- A committed operation leaves the book, or makes its change. -/
theorem AccountOp.run_change (inv : RepInv s) (hfresh : ∀ p, ¬ s.HasProvider ctx.generatedId p)
    {op : AccountOp} {a : op.Result} (hby : op.ByPubkey) (h : op.run ctx s = .ok (a, s')) :
    (op.change = none ∧ s'.addressBook = s.addressBook) ∨
      ∃ change, op.change = some change ∧ Step s.addressBook change s'.addressBook := by
  have heffect := AccountOp.run_effect inv hfresh hby h
  have inv' : RepInv s' := heffect.inv inv
  have upkeep : Upkeep s s' ctx.generatedId → (∀ id b, s'.HasBlinkId id b ↔ s.HasBlinkId id b) →
      s'.addressBook = s.addressBook := by
    intro hupkeep hblink
    have keeps : KeepsPayees s s' := by
      rcases hupkeep.accounts with same | ⟨_, adds⟩
      · exact .same same hblink
      · exact .adds adds hblink
    exact addressBook_kept inv inv' keeps hupkeep.identifiers
  cases op with
  | upsertSparkRegistration registration =>
      obtain ⟨row, reg⟩ := heffect
      have hblink := upsertSparkRegistration_blink (map_unit_ok h)
      have keeps := KeepsPayees.ensures reg.ensures (hasBlinkId_of_rows hblink)
      refine Or.inr ⟨_, rfl, ?_⟩
      rw [addressBook_assigns inv inv' keeps reg.ensures.hasSpark reg.assigns, reg.kind]
      have hkey : Keyed.key row =
          (registration.identifier.domain, registration.identifier.identifier) :=
        Prod.ext reg.domain reg.identifier
      rw [← hkey]
      refine .claim fun e he => ?_
      obtain ⟨x, hx, hxkey, hp, _⟩ := (addressBook_eq_some inv).mp he
      obtain ⟨_, hprovider⟩ := inv.owner hx
      have hp' := (keeps.pays hprovider e.holder).mpr hp
      rw [reg.own x hx hxkey] at hp'
      exact hp'.unique inv' reg.ensures.hasSpark
  | deleteSparkRegistration domain pubkey identifier claim =>
      obtain ⟨⟨row, rel⟩, _⟩ := heffect
      have hblink := deleteSparkRegistration_blink (map_unit_ok h)
      have keeps := KeepsPayees.same rel.same (hasBlinkId_of_rows hblink)
      refine Or.inr ⟨_, rfl, ?_⟩
      rw [addressBook_releases inv inv' keeps rel.stored rel.identifiers]
      have hkey : Keyed.key row = (domain, identifier) := Prod.ext rel.domain rel.identifier
      have he : s.addressBook (domain, identifier) =
          some ⟨.spark pubkey, decide (row.identifierKind = .username)⟩ :=
        (addressBook_eq_some inv).mpr ⟨row, rel.stored, hkey, rel.owner, rfl⟩
      rw [hkey]
      exact .release he rfl
  | transferIdentifier transfer =>
      exact Or.inr ⟨_, rfl, addressBook_handOver inv inv' (transferIdentifier_blink (map_unit_ok h))
        heffect.1⟩
  | transferBlinkIdentifierToSpark transfer =>
      exact Or.inr ⟨_, rfl, addressBook_handOver inv inv'
        (transferBlinkIdentifierToSpark_blink (map_unit_ok h)) heffect.1⟩
  | createBlinkAccount account =>
      obtain ⟨accountId, brings⟩ := createBlinkAccount_brings (map_unit_ok h)
      exact Or.inr ⟨_, rfl, addressBook_enrols inv inv' brings⟩
  | deleteExpiredSignedMessages now =>
      have hs' : s' = (s.deleteExpiredSignedMessages now).2 := heffect
      subst hs'
      exact Or.inl ⟨rfl, rfl⟩
  | updateBlinkDefaultWallet =>
      exact Or.inl ⟨rfl, upkeep heffect (updateBlinkDefaultWallet_blink h)⟩
  | insertSparkAccount =>
      exact Or.inl ⟨rfl,
        upkeep heffect (hasBlinkId_of_rows (insertSparkAccount_blink (map_unit_ok h)))⟩
  | resolveRecipientByIdentifier domain identifier =>
      refine Or.inl ⟨rfl, ?_⟩
      simp only [run] at h
      cases hanswer : s.resolveRecipientByIdentifier domain identifier with
      | error e =>
          rw [hanswer] at h
          cases h
      | ok answer =>
          rw [hanswer] at h
          cases h
          rfl
  | getSparkAccountMode => cases h; exact Or.inl ⟨rfl, rfl⟩
  | getAccountBySparkPubkey => cases h; exact Or.inl ⟨rfl, rfl⟩
  | sparkAccountIdByPubkey => cases h; exact Or.inl ⟨rfl, rfl⟩
  | setSparkModeEnhancedIfUnset => cases h; exact Or.inl ⟨rfl, upkeep heffect fun _ _ => Iff.rfl⟩
  | refreshSparkCountryEvidence => cases h; exact Or.inl ⟨rfl, upkeep heffect fun _ _ => Iff.rfl⟩
  | updateSparkMode => cases h; exact Or.inl ⟨rfl, upkeep heffect fun _ _ => Iff.rfl⟩

/-- A look-up answers what the book says. -/
theorem resolve_answers (inv : RepInv s) {domain identifier : String}
    {answer : Option ResolvedRecipient}
    (h : s.resolveRecipientByIdentifier domain identifier = .ok answer) :
    answer.map ResolvedRecipient.entry = (s.addressBook (domain, identifier)).map some := by
  by_cases hex : ∃ x ∈ s.accountIdentifiers, x.domain = domain ∧ x.identifier = identifier
  · obtain ⟨x, hx, rfl, rfl⟩ := hex
    obtain ⟨provider, hprovider⟩ := inv.owner hx
    obtain ⟨account, haccount, hsame⟩ := Option.map_eq_some_iff.mp (hasProvider_iff.mp hprovider)
    have hget : s.accountIdentifiers.get (x.domain, x.identifier) = some x :=
      Table.get_eq_some.mpr ⟨hx, rfl⟩
    have hid : account.accountId = x.accountId := Table.key_of_get haccount
    unfold resolveRecipientByIdentifier at h
    simp only [hget, haccount, hid] at h
    have hbook : s.addressBook (x.domain, x.identifier) =
        (s.payeeOf x.accountId).map fun payee =>
          ⟨payee, decide (x.identifierKind = .username)⟩ := by
      unfold addressBook
      rw [hget]
      rfl
    rw [hbook]
    unfold mapResolvedRecipient at h
    unfold payeeOf
    rw [hsame] at h
    cases provider with
    | spark =>
        obtain ⟨pubkey, r, hr, hrid, _⟩ := inv.spark_child hprovider
        rw [sparkAccountOf_eq_some.mpr ⟨hr, hrid⟩] at h ⊢
        dsimp only at h
        split at h
        · obtain rfl := Except.ok.inj h
          rfl
        · cases h
    | blink =>
        obtain ⟨b, hb, hbid⟩ := inv.blink_child hprovider
        have hspark : s.sparkAccountOf x.accountId = none :=
          sparkAccountOf_eq_none.mpr fun pk hpk => inv.not_both hpk ⟨b, hb, hbid, rfl⟩
        rw [hspark, blinkAccountOf_eq_some.mpr ⟨hb, hbid⟩] at h ⊢
        dsimp only at h
        split at h
        · obtain rfl := Except.ok.inj h
          rfl
        · cases h
  · have hno : ∀ x ∈ s.accountIdentifiers, ¬ (x.domain = domain ∧ x.identifier = identifier) :=
      fun x hx hk => hex ⟨x, hx, hk⟩
    rw [resolve_eq_none hno] at h
    obtain rfl := Except.ok.inj h
    have hbook : s.addressBook (domain, identifier) = none := by
      refine (addressBook_eq_none inv).mpr fun row hrow hkey => hno row hrow ?_
      exact ⟨congrArg Prod.fst hkey, congrArg Prod.snd hkey⟩
    rw [hbook]
    rfl

end Step

/-! ## Runs -/

section Runs

variable {state : State} {clock : Clock} {cfg : Server}

theorem addressChange_of_spares {c : Call} {r : Reply c} (i : Nat) (h : ∀ op, c ≠ .account op) :
    addressChange ⟨i, c, r⟩ = none := by
  cases c with
  | account op => exact absurd rfl (h op)
  | payment op => rfl
  | env op => rfl

/-- A call leaves the book, or makes a change that was possible. -/
theorem exec_change {w w' : World} {c : Call} {ch : Choice c} {r : Reply c} (i : Nat)
    (inv : RepInv w.accounts) (hby : ∀ op, c = .account op → op.ByPubkey)
    (hexec : exec c ch w = some (r, w')) :
    (addressChange ⟨i, c, r⟩ = none ∧ w'.accounts.addressBook = w.accounts.addressBook) ∨
      ∃ change, addressChange ⟨i, c, r⟩ = some change ∧
        Step w.accounts.addressBook change w'.accounts.addressBook := by
  by_cases hc : ∃ op, c = .account op
  · obtain ⟨op, rfl⟩ := hc
    rcases execAccount_cases hexec with ⟨rfl, e, rfl⟩ | ⟨a, s', rfl, hrun, rfl, hfresh⟩
    · exact Or.inl ⟨rfl, rfl⟩
    · exact AccountOp.run_change inv hfresh (hby op rfl) hrun
  · have hspares : ∀ op, c ≠ .account op := fun op hop => hc ⟨op, hop⟩
    rcases exec_accounts hexec with hsame | ⟨op, hop⟩
    · exact Or.inl ⟨addressChange_of_spares i hspares, by rw [hsame]⟩
    · exact absurd hop (hspares op)

theorem reachable_repInv
    (h : Reachable semantics always (handler state) (World.fresh clock) cfg) :
    RepInv cfg.hist.state.accounts :=
  (Reachable.sound (account_outline state) (accounts_initial state clock) h).inv

/-- The stored addresses are what the committed operations leave. -/
theorem reachable_addressBook
    (hreach : Reachable semantics always (handler state) (World.fresh clock) cfg) :
    Names.Run Book.empty (cfg.hist.log.filterMap addressChange)
      cfg.hist.state.accounts.addressBook := by
  induction hreach with
  | refl => exact .nil
  | @tail mid cfg hpre hstep ih =>
      cases hstep with
      | accept => exact ih
      | @call i q c k ch r w' hth hexec hok =>
          have hchange := exec_change i (reachable_repInv hpre) (byPubkey_of_thread hpre hth) hexec
          show Names.Run _ ((mid.hist.log ++ [(⟨i, c, r⟩ : CallEvent)]).filterMap addressChange)
            w'.accounts.addressBook
          rw [List.filterMap_append]
          rcases hchange with ⟨hnone, hsame⟩ | ⟨change, hsome, hstep⟩
          · rw [List.filterMap_cons_none hnone, List.filterMap_nil, List.append_nil, hsame]
            exact ih
          · rw [List.filterMap_cons_some hsome, List.filterMap_nil]
            exact ih.snoc hstep
      | @tick t w' htick =>
          show Names.Run _ _ w'.accounts.addressBook
          rw [(tick_cases htick).1]
          exact ih

/-- However requests interleave: the committed account operations of the log, in
its order, are a run of the book of addresses from the empty one, each change
possible where it is made, to the stored addresses; there a Spark key has at most
one username in a domain; and every look-up of the log has answered what the book
said when it was made. -/
theorem addresses_refine_book
    (hreach : Reachable semantics always (handler state) (World.fresh clock) cfg) :
    Names.Run Book.empty (cfg.hist.log.filterMap addressChange)
      cfg.hist.state.accounts.addressBook ∧
    (∀ pubkey, cfg.hist.state.accounts.addressBook.OnePrimary (.spark pubkey)) ∧
    ∀ before since i domain identifier answer,
      cfg.hist.log =
        before ++
          ⟨i, .account (.resolveRecipientByIdentifier domain identifier), .ok answer⟩ :: since →
      ∀ book, Names.Run Book.empty (before.filterMap addressChange) book →
        answer.map ResolvedRecipient.entry = (book (domain, identifier)).map some := by
  refine ⟨reachable_addressBook hreach, fun pubkey => ?_, ?_⟩
  · refine (reachable_addressBook hreach).onePrimary ?_ fun _ _ h => (by cases h)
    intro c hc names hnames
    obtain ⟨ev, _, hev⟩ := List.mem_filterMap.mp hc
    subst hnames
    unfold addressChange at hev
    split at hev
    · rename_i op _ _
      cases op <;> cases hev
    · cases hev
  · intro before since i domain identifier answer hlog book hbook
    obtain ⟨mid, mid', took, rfl⟩ := hreach.took_at hlog
    obtain ⟨_, _, ch, _, hexec, _⟩ := took.call
    obtain rfl := hbook.unique (reachable_addressBook took.before)
    rcases execAccount_cases hexec with ⟨_, e, hfails⟩ | ⟨a, s', hanswer, hrun, _, _⟩
    · cases hfails
    · obtain rfl := Except.ok.inj hanswer
      refine resolve_answers (reachable_repInv took.before) ?_
      simp only [AccountOp.run] at hrun
      cases hresolved : mid.hist.state.accounts.resolveRecipientByIdentifier domain identifier with
      | error e =>
          rw [hresolved] at hrun
          cases hrun
      | ok found =>
          rw [hresolved] at hrun
          cases hrun
          rfl

end Runs

/-! ## An example -/

section Example

open Schedule

/-- Two accounts are opened and the phone number of one is moved to the other, in
place of its username; what is left are two names. -/
theorem addresses_refine_book_moved :
    ∃ cfg : Server,
      Reachable semantics always (handler moverServer) (World.fresh ⟨1000000, by decide⟩) cfg ∧
      cfg.hist.log.filterMap addressChange =
        [.claim ("d.io", "alice") (.spark ownerKey.hex),
          .enrol (.blink "blink") [(("d.io", "+41791234567"), false), (("d.io", "bob"), true)],
          .handOver ("d.io", "+41791234567") (.spark ownerKey.hex)] ∧
      Names.Run Book.empty (cfg.hist.log.filterMap addressChange)
        cfg.hist.state.accounts.addressBook ∧
      cfg.hist.state.accounts.addressBook ("d.io", "+41791234567") =
        some ⟨.spark ownerKey.hex, false⟩ ∧
      cfg.hist.state.accounts.addressBook ("d.io", "alice") = none := by
  have hrun : (moverRun always
      (beforePhoneMoves ++ calls 2 2 { generatedId := "acct_3" })).any (fun cfg =>
        decide (cfg.hist.log.filterMap addressChange =
          [.claim ("d.io", "alice") (.spark ownerKey.hex),
            .enrol (.blink "blink") [(("d.io", "+41791234567"), false), (("d.io", "bob"), true)],
            .handOver ("d.io", "+41791234567") (.spark ownerKey.hex)] ∧
          cfg.hist.state.accounts.addressBook ("d.io", "+41791234567") =
            some ⟨.spark ownerKey.hex, false⟩ ∧
          cfg.hist.state.accounts.addressBook ("d.io", "alice") = none)) = true := by
    decide +kernel
  obtain ⟨cfg, hreach, _, hcfg⟩ := reachable_of_replay hrun
  obtain ⟨hchanges, hphone, halice⟩ := of_decide_eq_true hcfg
  exact ⟨cfg, hreach, hchanges, (addresses_refine_book hreach).1, hphone, halice⟩

end Example

end BlinkLnurl
