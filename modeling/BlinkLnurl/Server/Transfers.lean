import BlinkLnurl.Server.ModeContract

/-!
# What a transfer moves

Identifiers come to Spark accounts by registration and by the two transfers.
A registration and a user's transfer bring no phone number; the internal
transfer brings one whenever it is asked to (`phones_on_blink`). Every transfer
deletes the usernames its destination holds on the domain, which is right for a
username that replaces them and not for a phone number
(`transfer_moves_only_iff`).
-/

namespace BlinkLnurl

open Conc Rel AccountStore

/-- Every phone number belongs to a Blink account. -/
def AccountStore.PhonesOnBlink (s : AccountStore) : Prop :=
  ∀ x ∈ s.accountIdentifiers, x.identifierKind = .phone → s.HasProvider x.accountId .blink

instance (s : AccountStore) : Decidable s.PhonesOnBlink :=
  inferInstanceAs (Decidable (∀ x ∈ s.accountIdentifiers.rows, x.identifierKind = .phone →
    ∃ a ∈ s.accounts.rows, a.accountId = x.accountId ∧ a.provider = .blink))

/-- The identifier an internal transfer has moved. -/
def movedToSpark : CallEvent → Option (String × String)
  | ⟨_, .account (.transferBlinkIdentifierToSpark transfer), .ok _⟩ =>
      some (transfer.domain, transfer.identifier)
  | _ => none

/-- No internal transfer moves a phone number. -/
def MovesNoPhone (h : History) (ev : CallEvent) : Prop :=
  ∀ key, movedToSpark ev = some key → ∀ x ∈ h.state.accounts.accountIdentifiers,
    Keyed.key x = key → x.identifierKind ≠ .phone

instance (h : History) (ev : CallEvent) : Decidable (MovesNoPhone h ev) :=
  decidable_of_iff ((movedToSpark ev).all fun key =>
      h.state.accounts.accountIdentifiers.rows.all fun x =>
        !(decide (Keyed.key x = key) && decide (x.identifierKind = .phone))) <| by
    unfold MovesNoPhone
    cases movedToSpark ev with
    | none => exact iff_of_true rfl fun _ h => nomatch h
    | some key =>
        simp only [Option.all_some, List.all_eq_true, Bool.not_eq_true', Bool.and_eq_false_iff,
          decide_eq_false_iff_not, Table.mem_rows, Option.some.injEq, forall_eq']
        exact forall₂_congr fun _ _ => imp_iff_not_or.symm

/-! ## Phone numbers -/

section Phones

variable {s s' : AccountStore} {id : String} {op : AccountOp}

/-- An assignment to a Spark account keeps phone numbers where they are iff it
does not assign one. -/
theorem phonesOnBlink_assigns {row : AccountIdentifier} {pubkey : String}
    (hphones : s.PhonesOnBlink) (ens : EnsuresSpark s s' row.accountId pubkey)
    (assigns : Assigns s.accountIdentifiers s'.accountIdentifiers row) :
    s'.PhonesOnBlink ↔ row.identifierKind ≠ .phone := by
  constructor
  · intro h hphone
    have hblink := h row ((assigns row).mpr (Or.inl rfl)) hphone
    exact absurd (hblink.unique (ens.isSpark)) (by decide)
  · intro hkind x hx hphone
    rcases (assigns x).mp hx with rfl | ⟨hx, _⟩
    · exact absurd hphone hkind
    · exact ens.hasProvider (hphones x hx hphone)

/-- An operation other than a transfer to Spark brings no phone number to
Spark. -/
theorem AccountOp.Effect.phonesOnBlink (h : op.Effect s s' id) (hphones : s.PhonesOnBlink)
    (hop : ∀ transfer, op ≠ .transferBlinkIdentifierToSpark transfer) : s'.PhonesOnBlink := by
  have upkeep : Upkeep s s' id → s'.PhonesOnBlink := by
    intro h x hx hphone
    rw [h.identifiers] at hx
    rcases h.accounts with same | ⟨_, adds⟩
    · exact (same.provider _ _).mpr (hphones x hx hphone)
    · exact (adds.provider _ _).mpr (Or.inl (hphones x hx hphone))
  cases op with
  | upsertSparkRegistration registration =>
      obtain ⟨row, reg⟩ := h
      refine (phonesOnBlink_assigns hphones reg.ensures reg.assigns).mpr ?_
      rw [reg.kind]
      decide
  | deleteSparkRegistration domain pubkey identifier claim =>
      obtain ⟨⟨row, rel⟩, _⟩ := h
      intro x hx hphone
      exact (rel.same.provider _ _).mpr (hphones x ((rel.identifiers x).mp hx).1 hphone)
  | transferIdentifier transfer =>
      obtain ⟨⟨row, handsOver⟩, hspark, _⟩ := h
      refine (phonesOnBlink_assigns hphones handsOver.ensures handsOver.assigns).mpr
        fun hphone => ?_
      -- the source is a Spark account, so what it held is no phone number
      obtain ⟨x, hx, _, hsource, hkind⟩ := handsOver.taken
      have hblink := hphones x hx (hkind.trans hphone)
      rw [hsource] at hblink
      exact absurd (hblink.unique hspark) (by decide)
  | transferBlinkIdentifierToSpark transfer => exact absurd rfl (hop transfer)
  | createBlinkAccount account =>
      obtain ⟨⟨accountId, opens⟩, _⟩ := h
      intro x hx hphone
      rcases opens.opened x hx with hx | hx
      · exact (opens.provider _ _).mpr (Or.inl (hphones x hx hphone))
      · exact (opens.provider _ _).mpr (Or.inr ⟨hx, rfl⟩)
  | deleteExpiredSignedMessages now =>
      have hs' : s' = (s.deleteExpiredSignedMessages now).2 := h
      subst hs'
      exact hphones
  | getSparkAccountMode => exact upkeep h
  | getAccountBySparkPubkey => exact upkeep h
  | resolveRecipientByIdentifier => exact upkeep h
  | updateBlinkDefaultWallet => exact upkeep h
  | setSparkModeEnhancedIfUnset => exact upkeep h
  | refreshSparkCountryEvidence => exact upkeep h
  | sparkAccountIdByPubkey => exact upkeep h
  | insertSparkAccount => exact upkeep h
  | updateSparkMode => exact upkeep h

/-- Where phone numbers are on Blink accounts, a call leaves them there iff it
moves none. -/
theorem exec_phonesOnBlink {h : History} {w' : World} {i : Nat} {c : Call} {ch : Choice c}
    {r : Reply c} (inv : RepInv h.state.accounts) (hby : ∀ op, c = .account op → op.ByPubkey)
    (hexec : exec c ch h.state = some (r, w')) (hphones : h.state.accounts.PhonesOnBlink) :
    w'.accounts.PhonesOnBlink ↔ MovesNoPhone h ⟨i, c, r⟩ := by
  have spares : movedToSpark ⟨i, c, r⟩ = none → MovesNoPhone h ⟨i, c, r⟩ :=
    fun hnone _ hkey => nomatch hnone.symm.trans hkey
  cases c with
  | payment op =>
      rcases exec_accounts hexec with hsame | ⟨_, hop⟩
      · rw [hsame]
        exact iff_of_true hphones (spares rfl)
      · exact nomatch hop
  | env op =>
      rcases exec_accounts hexec with hsame | ⟨_, hop⟩
      · rw [hsame]
        exact iff_of_true hphones (spares rfl)
      · exact nomatch hop
  | account op =>
      rcases execAccount_cases hexec with ⟨rfl, e, rfl⟩ | ⟨a, s', rfl, hrun, rfl, hfresh⟩
      · refine iff_of_true hphones (spares ?_)
        cases op <;> rfl
      · have effect := AccountOp.run_effect inv hfresh (hby _ rfl) hrun
        by_cases hop : ∃ transfer, op = .transferBlinkIdentifierToSpark transfer
        · obtain ⟨transfer, rfl⟩ := hop
          obtain ⟨⟨row, handsOver⟩, _⟩ := effect
          obtain ⟨x, hx, hxkey, _, hkind⟩ := handsOver.taken
          have hkey : Keyed.key row = (transfer.domain, transfer.identifier) :=
            congrArg₂ Prod.mk handsOver.domain handsOver.identifier
          refine (phonesOnBlink_assigns hphones handsOver.ensures handsOver.assigns).trans ?_
          constructor
          · intro hrow key hmoved y hy hykey hphone
            obtain rfl := Option.some.inj hmoved
            have hyx : y = x := Table.eq_of_key hy hx (hykey.trans (hxkey.trans hkey).symm)
            rw [hyx, hkind] at hphone
            exact hrow hphone
          · intro hmoves hphone
            exact hmoves _ rfl x hx (hxkey.trans hkey) (hkind.trans hphone)
        · push Not at hop
          refine iff_of_true (effect.phonesOnBlink hphones hop) (spares ?_)
          cases op with
          | transferBlinkIdentifierToSpark transfer => exact absurd rfl (hop transfer)
          | _ => rfl

end Phones

section Runs

variable {state : State} {clock : Clock} {cfg : Server}

/-- What a thread of the server is about to call goes by pubkey. -/
theorem byPubkey_of_thread
    (hreach : Reachable semantics always (handler state) (World.fresh clock) cfg) {i : Nat}
    {q : Request} {c : Call} {k : Reply c → Handler Response}
    (hth : cfg.threads[i]? = some ⟨q, .call c k⟩) : ∀ op, c = .account op → op.ByPubkey := by
  intro op hop
  have hcfg := Reachable.sound (mode_outline state) (modes_initial clock) hreach
  exact (hcfg.guard modeContract_lawful.toKeeps hth op hop).byPubkey

/-- A run that moves no phone number to Spark keeps all of them on Blink
accounts; and the step that moves one is the one that breaks this. -/
theorem phones_on_blink :
    (Reachable semantics MovesNoPhone (handler state) (World.fresh clock) cfg →
      cfg.hist.state.accounts.PhonesOnBlink) ∧
    (Reachable semantics always (handler state) (World.fresh clock) cfg →
      cfg.hist.state.accounts.PhonesOnBlink →
        ∀ i q c (k : Reply c → Handler Response) ch r w',
          cfg.threads[i]? = some ⟨q, .call c k⟩ → exec c ch cfg.hist.state = some (r, w') →
            (w'.accounts.PhonesOnBlink ↔ MovesNoPhone cfg.hist ⟨i, c, r⟩)) := by
  constructor
  · intro hreach
    induction hreach with
    | refl => exact fun x hx => absurd hx (Table.not_mem_empty x)
    | tail hpre hstep ih =>
        have hreach : Reachable semantics always (handler state) (World.fresh clock) _ :=
          Steps.mono (fun _ _ _ => trivial) hpre
        have run := reachable_modeRun hreach
        cases hstep with
        | accept => exact ih
        | call hth hexec hok =>
            exact (exec_phonesOnBlink run.inv (byPubkey_of_thread hreach hth) hexec ih).mpr hok
        | tick htick =>
            show AccountStore.PhonesOnBlink _
            rw [(tick_cases htick).1]
            exact ih
  · intro hreach hphones i q c k ch r w' hth hexec
    exact exec_phonesOnBlink (reachable_modeRun hreach).inv (byPubkey_of_thread hreach hth) hexec
      hphones

end Runs

/-! ## What else changes -/

/-- The identifier that an operation hands over, and the pubkey it goes to. -/
def AccountOp.handsOver : AccountOp → Option (String × String × String)
  | .transferIdentifier transfer =>
      some (transfer.domain, transfer.identifier, transfer.destinationSparkPubkey)
  | .transferBlinkIdentifierToSpark transfer =>
      some (transfer.domain, transfer.identifier, transfer.destinationSparkPubkey)
  | _ => none

namespace AccountStore

/-- The identifier is stored as a username. -/
def IsUsername (s : AccountStore) (domain identifier : String) : Prop :=
  ∃ x ∈ s.accountIdentifiers, Keyed.key x = (domain, identifier) ∧ x.identifierKind = .username

/-- A username that the pubkey holds on the domain. -/
def UsernameOf (s : AccountStore) (domain pubkey : String) (y : AccountIdentifier) : Prop :=
  s.HasSpark y.accountId pubkey ∧ y.domain = domain ∧ y.identifierKind = .username

end AccountStore

/-- The identifier moves to the account of the pubkey, whose username it
replaces if it is one itself, and nothing else changes. -/
structure MovesOnly (w w' : World) (domain identifier pubkey : String) : Prop where
  moved : ∃ x ∈ w.accounts.accountIdentifiers, ∃ row ∈ w'.accounts.accountIdentifiers,
    Keyed.key x = (domain, identifier) ∧ Keyed.key row = (domain, identifier) ∧
      row.identifierKind = x.identifierKind ∧ w'.accounts.HasSpark row.accountId pubkey
  others : ∀ y : AccountIdentifier, Keyed.key y ≠ (domain, identifier) →
    (y ∈ w'.accounts.accountIdentifiers ↔ y ∈ w.accounts.accountIdentifiers ∧
      ¬ (w.accounts.IsUsername domain identifier ∧ w.accounts.UsernameOf domain pubkey y))
  payments : w'.payments = w.payments
  modes : ∀ pk, w'.accounts.getSparkAccountMode pk = w.accounts.getSparkAccountMode pk ∨
    w.accounts.getSparkAccountMode pk = none ∧
      ∃ id, w'.accounts.getSparkAccountMode pk = some (unsetMode id pk)

/-- The moved identifier is a username, or the pubkey holds none on the
domain. -/
def ReplacesInKind (s : AccountStore) (domain identifier pubkey : String) : Prop :=
  s.IsUsername domain identifier ∨ ∀ y ∈ s.accountIdentifiers, ¬ s.UsernameOf domain pubkey y

section Moves

variable {s s' : AccountStore} {domain identifier source pubkey : String} {row : AccountIdentifier}

theorem modes_of_ensures (h : EnsuresMode s s' pubkey) (pk : String) :
    s'.getSparkAccountMode pk = s.getSparkAccountMode pk ∨
      s.getSparkAccountMode pk = none ∧
        ∃ id, s'.getSparkAccountMode pk = some (unsetMode id pk) := by
  rcases h with ⟨hkeeps, _⟩ | ⟨id, adds⟩
  · exact Or.inl hkeeps.getSparkAccountMode
  · by_cases hpk : pk = pubkey
    · subst hpk
      exact Or.inr ⟨adds.unowned, id, adds.self⟩
    · exact Or.inl (adds.other hpk)

theorem AccountStore.HandsOver.key
    (handsOver : HandsOver s s' domain identifier source pubkey row) :
    Keyed.key row = (domain, identifier) :=
  congrArg₂ Prod.mk handsOver.domain handsOver.identifier

/-- A stored row is of the destination account iff its account is the
pubkey's. -/
theorem AccountStore.HandsOver.destination_iff (inv : RepInv s)
    (handsOver : HandsOver s s' domain identifier source pubkey row) {y : AccountIdentifier}
    (hy : y ∈ s.accountIdentifiers) :
    y.accountId = row.accountId ↔ s.HasSpark y.accountId pubkey := by
  cases handsOver.ensures with
  | stored _ spark _ =>
      constructor
      · intro h
        rw [h]
        exact spark
      · exact fun h => h.account_unique spark
  | added adds =>
      refine iff_of_false (fun h => ?_) (adds.unowned y.accountId)
      obtain ⟨p, hp⟩ := inv.owner hy
      exact adds.fresh p (h ▸ hp)

/-- What is left besides the moved identifier. -/
theorem AccountStore.HandsOver.others (inv : RepInv s)
    (handsOver : HandsOver s s' domain identifier source pubkey row) {y : AccountIdentifier}
    (hkey : Keyed.key y ≠ (domain, identifier)) :
    y ∈ s'.accountIdentifiers ↔ y ∈ s.accountIdentifiers ∧ ¬ s.UsernameOf domain pubkey y := by
  rw [handsOver.assigns y]
  have hne : Keyed.key y ≠ Keyed.key row := handsOver.key.symm ▸ hkey
  have hrow : y ≠ row := fun h => hne (congrArg _ h)
  constructor
  · intro h
    rcases h with h | ⟨hy, _, hkept⟩
    · exact absurd h hrow
    · refine ⟨hy, fun ⟨hspark, hdomain, hkind⟩ => hkept ⟨?_, ?_, hkind⟩⟩
      · exact (handsOver.destination_iff inv hy).mpr hspark
      · exact hdomain.trans handsOver.domain.symm
  · intro ⟨hy, hkept⟩
    refine Or.inr ⟨hy, hne, fun ⟨hid, hdomain, hkind⟩ => hkept ⟨?_, ?_, hkind⟩⟩
    · exact (handsOver.destination_iff inv hy).mp hid
    · exact hdomain.trans handsOver.domain

/-- A transfer is as it should be iff the username it deletes, if it does, is
replaced by a username. -/
theorem AccountStore.HandsOver.movesOnly_iff {w : World} (inv : RepInv w.accounts)
    (handsOver : HandsOver w.accounts s' domain identifier source pubkey row)
    (modes : EnsuresMode w.accounts s' pubkey) :
    MovesOnly w { w with accounts := s' } domain identifier pubkey ↔
      ReplacesInKind w.accounts domain identifier pubkey := by
  constructor
  · intro h
    by_cases huser : w.accounts.IsUsername domain identifier
    · exact Or.inl huser
    · refine Or.inr fun y hy husername => ?_
      -- a username is not the row of the phone number
      have hkey : Keyed.key y ≠ (domain, identifier) := fun hkey =>
        huser ⟨y, hy, hkey, husername.2.2⟩
      have hstays := (h.others y hkey).mpr ⟨hy, fun ⟨hmoved, _⟩ => huser hmoved⟩
      exact ((handsOver.others inv hkey).mp hstays).2 husername
  · intro hkind
    obtain ⟨x, hx, hkey, _, hxkind⟩ := handsOver.taken
    refine ⟨⟨x, hx, row, (handsOver.assigns row).mpr (Or.inl rfl), hkey.trans handsOver.key,
      handsOver.key,
      hxkind.symm, handsOver.ensures.hasSpark⟩, ?_, rfl, modes_of_ensures modes⟩
    intro y hne
    show y ∈ s'.accountIdentifiers ↔ _
    rw [handsOver.others inv hne]
    rcases hkind with huser | hnone
    · exact and_congr_right fun _ => not_congr (and_iff_right huser).symm
    · refine and_congr_right fun hy => ?_
      exact iff_of_true (hnone y hy) fun h => hnone y hy h.2

end Moves

/-- In every reachable state, a successful transfer disturbs nothing else iff it
moves a username or its destination holds no username on the domain. -/
theorem transfer_moves_only_iff {state : State} {clock : Clock} {cfg : Server}
    (hreach : Reachable semantics always (handler state) (World.fresh clock) cfg) {op : AccountOp}
    {domain identifier pubkey : String} (hop : op.handsOver = some (domain, identifier, pubkey))
    {ch : StoreChoice} {a : op.Result} {w' : World}
    (hexec : exec (.account op) ch cfg.hist.state = some (.ok a, w')) :
    MovesOnly cfg.hist.state w' domain identifier pubkey ↔
      ReplacesInKind cfg.hist.state.accounts domain identifier pubkey := by
  have inv := (reachable_modeRun hreach).inv
  rcases execAccount_cases hexec with ⟨_, e, hr⟩ | ⟨_, s', _, hrun, rfl, hfresh⟩
  · exact nomatch hr
  · cases op with
    | transferIdentifier transfer =>
        obtain ⟨rfl, rfl, rfl⟩ : transfer.domain = domain ∧ transfer.identifier = identifier ∧
            transfer.destinationSparkPubkey = pubkey := by
          simpa [AccountOp.handsOver] using hop
        have hby : (AccountOp.transferIdentifier transfer).ByPubkey := trivial
        obtain ⟨⟨row, handsOver⟩, _⟩ := AccountOp.run_effect inv hfresh hby hrun
        exact handsOver.movesOnly_iff inv (transferIdentifier_modes inv (map_unit_ok hrun))
    | transferBlinkIdentifierToSpark transfer =>
        obtain ⟨rfl, rfl, rfl⟩ : transfer.domain = domain ∧ transfer.identifier = identifier ∧
            transfer.destinationSparkPubkey = pubkey := by
          simpa [AccountOp.handsOver] using hop
        have hby : (AccountOp.transferBlinkIdentifierToSpark transfer).ByPubkey := trivial
        obtain ⟨⟨row, handsOver⟩, _⟩ := AccountOp.run_effect inv hfresh hby hrun
        exact handsOver.movesOnly_iff inv
          (transferBlinkIdentifierToSpark_modes inv (map_unit_ok hrun))
    | _ => exact nomatch hop

instance (s : AccountStore) (domain identifier : String) :
    Decidable (s.IsUsername domain identifier) :=
  inferInstanceAs (Decidable (∃ x ∈ s.accountIdentifiers.rows,
    Keyed.key x = (domain, identifier) ∧ x.identifierKind = .username))

/-! ## Examples

The owner of a key has registered `alice`; a Blink account holds a phone number
and `bob`, which are moved to that key. -/

section Example

open Deployment Schedule

def moverSigned : Deployment :=
  { keys := [ownerKey]
    signed := [(ownerKey, "alice-1000")] }

def moverServer : State :=
  { moverSigned.state with crates := { moverSigned.crates with phoneNumbers := swissNumbers } }

def ownsAlice : Request :=
  .register blinkHost ownerKey.hex ⟨"alice", "3006020101020101", 1000, "Pay to alice@d.io"⟩

def opensBlinkAccount : Request :=
  .createInternalBlinkAccount ⟨["blink:accounts:create"]⟩
    { domain := "d.io", blinkAccountId := "blink", btcWalletId := "btc", usdWalletId := "usd"
      defaultWallet := "btc", description := "Pay", identifiers := ["+41791234567", "bob"] }

def movesPhone : Request :=
  .transferIdentifierToSpark ⟨["blink:transfers:write"]⟩
    (some { domain := "d.io", identifier := "+41791234567", destinationSparkPubkey := ownerKey.hex
            description := "Pay" })

/-- Both accounts are there. -/
def twoAccounts : Schedule :=
  serve ownsAlice ++ calls 0 4 ++ serve opensBlinkAccount ++ calls 1 2 { generatedId := "acct_2" }

/-- The number is about to be moved. -/
def beforePhoneMoves : Schedule :=
  twoAccounts ++ serve movesPhone ++ calls 2 1 { generatedId := "acct_3" }

/-- Where a schedule leads. -/
abbrev moverRun (ok : History → CallEvent → Prop) [∀ h ev, Decidable (ok h ev)] (ms : Schedule) :
    Option Server :=
  replay semantics ok (handler moverServer) ms (.initial (World.fresh ⟨1000000, startMillis_fits⟩))

def asksForBob : Request :=
  .transferIdentifierToSpark ⟨["blink:transfers:write"]⟩
    (some { domain := "d.io", identifier := "bob", destinationSparkPubkey := ownerKey.hex
            description := "Pay" })

/-- `bob` is moved to the key, and the number stays. -/
theorem phones_on_blink_two_accounts :
    ∃ cfg : Server, cfg.hist.state.accounts.PhonesOnBlink ∧
      (cfg.hist.log.any fun ev => movedToSpark ev = some ("d.io", "bob")) = true ∧
      cfg.hist.state.accounts.accountIdentifiers.any (fun x => x.identifierKind = .phone) =
      true := by
  have hrun : (moverRun MovesNoPhone (twoAccounts ++ serve asksForBob ++
      calls 2 3 { generatedId := "acct_3" })).any (fun cfg =>
        decide ((cfg.hist.log.any fun ev => movedToSpark ev = some ("d.io", "bob")) = true ∧
          cfg.hist.state.accounts.accountIdentifiers.any (fun x => x.identifierKind = .phone) =
            true)) = true := by
    decide +kernel
  obtain ⟨cfg, hreach, _, hmoved⟩ := reachable_of_replay hrun
  obtain ⟨hbob, hphone⟩ := of_decide_eq_true hmoved
  exact ⟨cfg, phones_on_blink.1 hreach, hbob, hphone⟩

/-- Asked to, the internal transfer gives a phone number to a Spark account. -/
theorem spark_owns_phone :
    ∃ cfg : Server,
      Reachable semantics always (handler moverServer) (World.fresh ⟨1000000, by decide⟩) cfg ∧
      cfg.request 2 = some movesPhone ∧ ¬ cfg.hist.state.accounts.PhonesOnBlink := by
  have hrun : (moverRun always
      (beforePhoneMoves ++ calls 2 2 { generatedId := "acct_3" })).any (fun cfg =>
        decide (¬ cfg.hist.state.accounts.PhonesOnBlink)) = true := by
    decide +kernel
  obtain ⟨cfg, hreach, hserved, hphones⟩ := reachable_of_replay hrun
  exact ⟨cfg, hreach, hserved 2, of_decide_eq_true hphones⟩

/-- The number moves, and `alice` is deleted. -/
theorem phone_replaces_alice :
    ∃ cfg cfg' : Server,
      Reachable semantics always (handler moverServer) (World.fresh ⟨1000000, by decide⟩) cfg ∧
      Step semantics always (handler moverServer) cfg cfg' ∧ cfg'.request 2 = some movesPhone ∧
      cfg'.hist.log.getLast?.bind movedToSpark = some ("d.io", "+41791234567") ∧
      (∃ y ∈ cfg.hist.state.accounts.accountIdentifiers,
        Keyed.key y = ("d.io", "alice") ∧ y ∉ cfg'.hist.state.accounts.accountIdentifiers) ∧
      ¬ MovesOnly cfg.hist.state cfg'.hist.state "d.io" "+41791234567" ownerKey.hex := by
  have hbefore : (moverRun always beforePhoneMoves).any (fun cfg =>
      decide ((∃ y ∈ cfg.hist.state.accounts.accountIdentifiers.rows,
          Keyed.key y = ("d.io", "alice")) ∧
        ¬ cfg.hist.state.accounts.IsUsername "d.io" "+41791234567")) = true := by
    decide +kernel
  have hafter : (moverRun always
      (beforePhoneMoves ++ [.call 2 (Answers.choice { generatedId := "acct_3" })])).any (fun cfg' =>
        decide ((∀ y ∈ cfg'.hist.state.accounts.accountIdentifiers.rows,
          Keyed.key y ≠ ("d.io", "alice")) ∧
        cfg'.hist.log.getLast?.bind movedToSpark = some ("d.io", "+41791234567"))) = true := by
    decide +kernel
  obtain ⟨cfg, cfg', hreach, hstep, hserved, hbefore, hafter⟩ := step_of_replay hbefore hafter
  obtain ⟨⟨y, hy, hkey⟩, hphone⟩ := of_decide_eq_true hbefore
  obtain ⟨hgone, hmoved⟩ := of_decide_eq_true hafter
  have hlost : y ∉ cfg'.hist.state.accounts.accountIdentifiers := fun hy' => hgone y hy' hkey
  refine ⟨cfg, cfg', hreach, hstep, hserved 2, hmoved, ⟨y, hy, hkey, hlost⟩, fun h => hlost ?_⟩
  refine (h.others y ?_).mpr ⟨hy, fun hreplaced => hphone hreplaced.1⟩
  rw [hkey]
  decide

def movesBob : AccountOp :=
  .transferBlinkIdentifierToSpark ⟨"d.io", "bob", "acct_2", ownerKey.hex, "Pay"⟩

/-- `bob` replaces `alice`. -/
theorem transfer_moves_only_bob :
    ∃ cfg : Server, ∃ w' : World, MovesOnly cfg.hist.state w' "d.io" "bob" ownerKey.hex := by
  have hrun : (moverRun always twoAccounts).any (fun cfg =>
      decide (cfg.hist.state.accounts.IsUsername "d.io" "bob") &&
        (exec (.account movesBob) ⟨false, "acct_3"⟩ cfg.hist.state).any fun out => out.1.isOk) =
          true := by
    decide +kernel
  obtain ⟨cfg, hreach, _, hbob⟩ := reachable_of_replay hrun
  obtain ⟨huser, hmoves⟩ := Bool.and_eq_true_iff.mp hbob
  obtain ⟨⟨r, w'⟩, hexec, hok⟩ := (Option.any_eq_true _ _).mp hmoves
  cases r with
  | error e => exact nomatch hok
  | ok a =>
      exact ⟨cfg, w', (transfer_moves_only_iff hreach rfl hexec).mpr
        (Or.inl (of_decide_eq_true huser))⟩

end Example

end BlinkLnurl
