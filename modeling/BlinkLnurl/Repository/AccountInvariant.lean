import BlinkLnurl.Repository.AccountOps

/-!
# The account tables after any sequence of operations

`RouteOp` lists the operations that the routes issue, with the arguments the
routes can give them: a registration never names the account it is for. Every
operation keeps `RepInv` (`RouteOp.inv`), so every reachable store has it
(`AccountReachable.inv`), and with it the two lookups of the public routes,
by identifier and by pubkey, say the same.
-/

namespace BlinkLnurl

open Rel

namespace AccountStore

/-! ## Lookups under the invariant -/

/-- A stored identifier is resolved, with the child row of its account. -/
theorem resolve_of_mem {s : AccountStore} (inv : RepInv s) {x : AccountIdentifier}
    (hx : x ∈ s.accountIdentifiers) :
    ∃ r : ResolvedRecipient,
      resolveRecipientByIdentifier x.domain x.identifier s = .ok (some r) ∧
      r.accountId = x.accountId ∧ r.domain = x.domain ∧ r.identifier = x.identifier ∧
      r.identifierKind = x.identifierKind ∧ s.HasProvider x.accountId r.provider ∧
      ∀ pk, r.sparkPubkey = some pk ↔ s.HasSpark x.accountId pk := by
  obtain ⟨p, hp⟩ := inv.owner hx
  obtain ⟨a, ha, hap⟩ := Option.map_eq_some_iff.mp (hasProvider_iff.mp hp)
  have haid : a.accountId = x.accountId := Table.key_of_get ha
  have hget : s.accountIdentifiers.get (x.domain, x.identifier) = some x :=
    Table.get_eq_some.mpr ⟨hx, rfl⟩
  unfold resolveRecipientByIdentifier
  simp only [hget, ha]
  cases p with
  | spark =>
      obtain ⟨pk, hpk⟩ := inv.spark_child hp
      obtain ⟨r, hr, hrid, hrpk⟩ := hpk
      have hspark : s.sparkAccountOf a.accountId = some r :=
        sparkAccountOf_eq_some.mpr ⟨hr, hrid.trans haid.symm⟩
      have hblink : s.blinkAccountOf a.accountId = none := by
        by_contra hne
        have hb := blinkAccountOf_isSome.mp (Option.isSome_iff_ne_none.mpr hne)
        rw [haid] at hb
        exact absurd ((inv.blink_provider hb).unique hp) (by decide)
      refine ⟨_, by rw [mapResolvedRecipient, hap, hspark, hblink]; rfl, haid, rfl, rfl, rfl,
        ⟨a, (Table.get_eq_some.mp ha).1, haid, hap⟩, fun pk' => ?_⟩
      show some r.pubkey = some pk' ↔ _
      constructor
      · intro h
        exact ⟨r, hr, hrid, Option.some.inj h⟩
      · intro h
        exact congrArg some (HasSpark.pubkey_unique ⟨r, hr, hrid, rfl⟩ h)
  | blink =>
      have hblink := inv.blink_child hp
      have hspark : s.sparkAccountOf a.accountId = none := by
        refine sparkAccountOf_eq_none.mpr fun pk hpk => ?_
        rw [haid] at hpk
        exact absurd ((inv.spark_provider hpk).unique hp) (by decide)
      obtain ⟨b, hb⟩ := Option.isSome_iff_exists.mp (blinkAccountOf_isSome.mpr (haid ▸ hblink))
      refine ⟨_, by rw [mapResolvedRecipient, hap, hspark, hb]; rfl, haid, rfl, rfl, rfl,
        ⟨a, (Table.get_eq_some.mp ha).1, haid, hap⟩, fun pk' => ?_⟩
      show none = some pk' ↔ _
      constructor
      · intro h
        cases h
      · intro h
        exact absurd ((inv.spark_provider h).unique hp) (by decide)

theorem resolve_eq_none {s : AccountStore} {domain identifier : String}
    (h : ∀ x ∈ s.accountIdentifiers, ¬ (x.domain = domain ∧ x.identifier = identifier)) :
    resolveRecipientByIdentifier domain identifier s = .ok none := by
  have hget : s.accountIdentifiers.get (domain, identifier) = none := by
    refine Table.get_eq_none.mpr fun x hx hk => h x hx ?_
    exact ⟨congrArg Prod.fst hk, congrArg Prod.snd hk⟩
  unfold resolveRecipientByIdentifier
  rw [hget]

/-- What `resolve_recipient_by_identifier` can answer. -/
theorem resolve_cases {s : AccountStore} (inv : RepInv s) (domain identifier : String) :
    resolveRecipientByIdentifier domain identifier s = .ok none ∨
      ∃ x ∈ s.accountIdentifiers, x.domain = domain ∧ x.identifier = identifier ∧
        ∃ r : ResolvedRecipient, resolveRecipientByIdentifier domain identifier s = .ok (some r) ∧
          r.accountId = x.accountId ∧ r.identifierKind = x.identifierKind ∧
          s.HasProvider x.accountId r.provider ∧
          ∀ pk, r.sparkPubkey = some pk ↔ s.HasSpark x.accountId pk := by
  by_cases hex : ∃ x ∈ s.accountIdentifiers, x.domain = domain ∧ x.identifier = identifier
  · obtain ⟨x, hx, rfl, rfl⟩ := hex
    obtain ⟨r, hr, hid, _, _, hkind, hprov, hspark⟩ := resolve_of_mem inv hx
    exact Or.inr ⟨x, hx, rfl, rfl, r, hr, hid, hkind, hprov, hspark⟩
  · exact Or.inl (resolve_eq_none fun x hx hk => hex ⟨x, hx, hk⟩)

/-- `get_spark_username_by_pubkey` finds the one username of the pubkey's
account. -/
theorem usernameByPubkey_iff {s : AccountStore} (inv : RepInv s) {domain pubkey username : String} :
    (getSparkUsernameByPubkey domain pubkey s).map SparkUsername.username = some username ↔
      ∃ x ∈ s.accountIdentifiers, x.domain = domain ∧ x.identifier = username ∧
        x.identifierKind = .username ∧ s.HasSpark x.accountId pubkey := by
  unfold getSparkUsernameByPubkey
  cases hfound : s.accountOfPubkey pubkey with
  | none =>
      constructor
      · intro h
        cases h
      · rintro ⟨x, _, _, _, _, hspark⟩
        exact absurd hspark (accountOfPubkey_eq_none.mp hfound _)
  | some r =>
      obtain ⟨hr, hrpk⟩ := accountOfPubkey_eq_some.mp hfound
      have hown : s.HasSpark r.accountId pubkey := ⟨r, hr, rfl, hrpk⟩
      have hprov := inv.spark_provider hown
      obtain ⟨a, ha, hap⟩ := Option.map_eq_some_iff.mp (hasProvider_iff.mp hprov)
      have haid : a.accountId = r.accountId := Table.key_of_get ha
      simp only [ha, hap, if_true, Option.map_map]
      generalize hrows : (s.accountIdentifiers.select fun x =>
        x.accountId = a.accountId && x.domain = domain && x.identifierKind = .username) = rows
      have hmem : ∀ x, x ∈ rows.insertionSort (fun a b => usernameOrder a b) ↔
          x ∈ s.accountIdentifiers ∧ x.accountId = a.accountId ∧ x.domain = domain ∧
            x.identifierKind = .username := by
        intro x
        rw [List.mem_insertionSort, ← hrows, Table.mem_select]
        simp [and_assoc]
      constructor
      · intro h
        obtain ⟨x, hx, rfl⟩ := Option.map_eq_some_iff.mp h
        obtain ⟨hxm, hxa, hxd, hxk⟩ := (hmem x).mp (List.mem_of_mem_head? hx)
        exact ⟨x, hxm, hxd, rfl, hxk, by rw [hxa, haid]; exact hown⟩
      · rintro ⟨x, hx, hxd, rfl, hxk, hxs⟩
        have hxa : x.accountId = a.accountId := (hxs.account_unique hown).trans haid.symm
        have hxin := (hmem x).mpr ⟨hx, hxa, hxd, hxk⟩
        -- the list has a head, and the account has no second username here
        cases hhead : (rows.insertionSort fun a b => usernameOrder a b).head? with
        | none =>
            rw [List.head?_eq_none_iff.mp hhead] at hxin
            exact absurd hxin List.not_mem_nil
        | some y =>
            obtain ⟨hy, hya, hyd, hyk⟩ := (hmem y).mp (List.mem_of_mem_head? hhead)
            have hxp : s.HasProvider x.accountId .spark := by rw [hxa, haid]; exact hprov
            rw [inv.one_username hx hy hxp (hxa.trans hya.symm) (hxd.trans hyd.symm) hxk hyk]
            rfl

/-! ## Operations as the routes issue them -/

/-- The repository operations on the account tables, with the arguments the
routes give them. -/
inductive RouteOp
  | upsertSparkRegistration (pubkey : String) (identifier : NewAccountIdentifier)
      (claim : Option StatementClaim)
  | upsertSparkMode (update : SparkModeUpdate)
  | refreshSparkCountryEvidence (pubkey country : String)
  | setSparkModeEnhancedIfUnset (pubkey : String)
  | createBlinkAccount (account : NewBlinkAccount)
  | updateBlinkDefaultWallet (blinkAccountId : String) (defaultWallet : WalletKind)
  | deleteSparkRegistration (domain pubkey identifier : String) (claim : Option StatementClaim)
  | transferIdentifier (transfer : IdentifierTransfer)
  | transferBlinkIdentifierToSpark (transfer : BlinkToSparkIdentifierTransfer)
  | deleteExpiredSignedMessages (now : Int)

/-- What a transaction leaves behind: its writes, or after an error what was
there before. -/
def commit (s : AccountStore) : Except RepositoryError AccountStore → AccountStore
  | .ok s' => s'
  | .error _ => s

/-- The store after an operation, whether it succeeded or failed. -/
def RouteOp.after (ctx : Ctx) (s : AccountStore) : RouteOp → AccountStore
  | .upsertSparkRegistration pubkey identifier claim =>
      s.commit (AccountStore.upsertSparkRegistration ctx ⟨none, pubkey, identifier, claim⟩ s)
  | .upsertSparkMode update => (AccountStore.upsertSparkMode ctx update s).2
  | .refreshSparkCountryEvidence pubkey country =>
      AccountStore.refreshSparkCountryEvidence ctx pubkey country s
  | .setSparkModeEnhancedIfUnset pubkey => AccountStore.setSparkModeEnhancedIfUnset ctx pubkey s
  | .createBlinkAccount account => s.commit (AccountStore.createBlinkAccount ctx account s)
  | .updateBlinkDefaultWallet blinkAccountId wallet =>
      s.commit ((AccountStore.updateBlinkDefaultWallet ctx blinkAccountId wallet s).map Prod.snd)
  | .deleteSparkRegistration domain pubkey identifier claim =>
      s.commit (AccountStore.deleteSparkRegistration ctx domain pubkey identifier claim s)
  | .transferIdentifier transfer => s.commit (AccountStore.transferIdentifier ctx transfer s)
  | .transferBlinkIdentifierToSpark transfer =>
      s.commit (AccountStore.transferBlinkIdentifierToSpark ctx transfer s)
  | .deleteExpiredSignedMessages now => (AccountStore.deleteExpiredSignedMessages now s).2

/-- The stores that sequences of operations reach from the empty one; a
generated account id belongs to no account yet. -/
inductive AccountReachable : AccountStore → Prop
  | empty : AccountReachable .empty
  | step {s : AccountStore} {ctx : Ctx} (op : RouteOp) : AccountReachable s →
      (∀ p, ¬ s.HasProvider ctx.generatedId p) → AccountReachable (op.after ctx s)

theorem commit_inv {s : AccountStore} {out : Except RepositoryError AccountStore} (inv : RepInv s)
    (h : ∀ s', out = .ok s' → RepInv s') : RepInv (s.commit out) := by
  cases out with
  | error e => exact inv
  | ok s' => exact h s' rfl

/-- The step lemma: every operation keeps the invariant. -/
theorem RouteOp.inv {s : AccountStore} {ctx : Ctx} (op : RouteOp) (inv : RepInv s)
    (hfresh : ∀ p, ¬ s.HasProvider ctx.generatedId p) : RepInv (op.after ctx s) := by
  cases op with
  | upsertSparkRegistration pubkey identifier claim =>
      refine commit_inv inv fun s' h => ?_
      obtain ⟨row, reg⟩ := upsertSparkRegistration_ok inv rfl hfresh h
      exact inv.assigns reg.ensures reg.assigns
  | upsertSparkMode update =>
      obtain ⟨heffect, hids⟩ := @upsertSparkMode_effect ctx s update
      have hsub : ∀ x ∈ (AccountStore.upsertSparkMode ctx update s).2.accountIdentifiers,
          x ∈ s.accountIdentifiers := fun x hx => hids ▸ hx
      rcases heffect with same | adds
      · exact inv.same same hsub
      · exact inv.addsSpark adds hsub
  | refreshSparkCountryEvidence pubkey country =>
      exact inv.same refreshSparkCountryEvidence_same fun _ hx => hx
  | setSparkModeEnhancedIfUnset pubkey =>
      exact inv.same setSparkModeEnhancedIfUnset_same fun _ hx => hx
  | createBlinkAccount account =>
      refine commit_inv inv fun s' h => ?_
      obtain ⟨⟨id, opens⟩, _⟩ := createBlinkAccount_ok h
      exact inv.opensBlink opens
  | updateBlinkDefaultWallet blinkAccountId wallet =>
      refine commit_inv inv fun s' h => ?_
      cases hout : AccountStore.updateBlinkDefaultWallet ctx blinkAccountId wallet s with
      | error e => rw [hout] at h; cases h
      | ok out =>
          rw [hout] at h
          cases h
          obtain ⟨same, hids, _⟩ := updateBlinkDefaultWallet_ok hout
          exact inv.same same fun x hx => hids ▸ hx
  | deleteSparkRegistration domain pubkey identifier claim =>
      refine commit_inv inv fun s' h => ?_
      obtain ⟨⟨row, rel⟩, _⟩ := deleteSparkRegistration_ok h
      exact inv.same rel.same fun x hx => ((rel.identifiers x).mp hx).1
  | transferIdentifier transfer =>
      refine commit_inv inv fun s' h => ?_
      obtain ⟨⟨row, handsOver⟩, _, _⟩ := transferIdentifier_ok inv h
      exact inv.assigns handsOver.ensures handsOver.assigns
  | transferBlinkIdentifierToSpark transfer =>
      refine commit_inv inv fun s' h => ?_
      obtain ⟨⟨row, handsOver⟩, _, _⟩ := transferBlinkIdentifierToSpark_ok inv h
      exact inv.assigns handsOver.ensures handsOver.assigns
  | deleteExpiredSignedMessages now =>
      exact inv.same (SameAccounts.of_tables rfl rfl rfl) fun _ hx => hx

/-- The run lemma. -/
theorem AccountReachable.inv {s : AccountStore} (h : AccountReachable s) : RepInv s := by
  induction h with
  | empty => exact RepInv.empty
  | step op _ hfresh ih => exact op.inv ih hfresh

/-- The account holds the child row of its provider, once, and no row of the
other provider. -/
def OwnChildOnly (s : AccountStore) (a : Account) : Prop :=
  match a.provider with
  | .spark => (∃! r, r ∈ s.sparkAccounts ∧ r.accountId = a.accountId) ∧
      ∀ r ∈ s.blinkAccounts, r.accountId ≠ a.accountId
  | .blink => (∃! r, r ∈ s.blinkAccounts ∧ r.accountId = a.accountId) ∧
      ∀ r ∈ s.sparkAccounts, r.accountId ≠ a.accountId

theorem RepInv.ownChildOnly {s : AccountStore} (inv : RepInv s) {a : Account}
    (ha : a ∈ s.accounts) : s.OwnChildOnly a := by
  have hprov : s.HasProvider a.accountId a.provider := ⟨a, ha, rfl, rfl⟩
  unfold OwnChildOnly
  cases hp : a.provider with
  | spark =>
      rw [hp] at hprov
      obtain ⟨pk, r, hr, hid, _⟩ := inv.spark_child hprov
      refine ⟨⟨r, ⟨hr, hid⟩, fun r' hr' => ?_⟩, fun b hb hbid => ?_⟩
      · exact Table.eq_of_clash hr'.1 hr (Or.inl (hr'.2.trans hid.symm))
      · exact absurd ((inv.blink_provider ⟨b, hb, hbid⟩).unique hprov) (by decide)
  | blink =>
      rw [hp] at hprov
      obtain ⟨b, hb, hid⟩ := inv.blink_child hprov
      refine ⟨⟨b, ⟨hb, hid⟩, fun b' hb' => ?_⟩, fun r hr hrid => ?_⟩
      · exact Table.eq_of_clash hb'.1 hb (Or.inl (hb'.2.trans hid.symm))
      · exact absurd ((inv.spark_provider ⟨r, hr, hrid, rfl⟩).unique hprov) (by decide)

/-- In every reachable store each account has exactly its provider's child row,
pubkeys and names are unique, resolving an identifier never finds an
inconsistent account, and the username looked up by pubkey is the one that
resolves to that pubkey. -/
theorem account_store_consistent {s : AccountStore} (h : AccountReachable s) :
    (∀ a ∈ s.accounts, s.OwnChildOnly a) ∧
    (∀ r ∈ s.sparkAccounts, ∀ r' ∈ s.sparkAccounts, r.pubkey = r'.pubkey → r = r') ∧
    (∀ x ∈ s.accountIdentifiers, ∀ y ∈ s.accountIdentifiers,
      x.domain = y.domain → x.identifier = y.identifier → x = y) ∧
    (∀ domain identifier,
      resolveRecipientByIdentifier domain identifier s ≠ .error .invalidOwnership ∧
      resolveRecipientByIdentifier domain identifier s ≠ .error .invalidProvider) ∧
    (∀ domain pubkey username,
      (getSparkUsernameByPubkey domain pubkey s).map SparkUsername.username = some username ↔
        ∃ r : ResolvedRecipient, resolveRecipientByIdentifier domain username s = .ok (some r) ∧
          r.provider = .spark ∧ r.identifierKind = .username ∧ r.sparkPubkey = some pubkey) := by
  have inv := h.inv
  refine ⟨fun a ha => inv.ownChildOnly ha, ?_, ?_, ?_, ?_⟩
  · intro r hr r' hr' hpk
    exact Table.eq_of_clash hr hr' (Or.inr hpk)
  · intro x hx y hy hd hi
    exact Table.eq_of_key hx hy (Prod.ext hd hi)
  · intro domain identifier
    rcases resolve_cases inv domain identifier with hnone | ⟨_, _, _, _, r, hr, _⟩
    · rw [hnone]
      exact ⟨nofun, nofun⟩
    · rw [hr]
      exact ⟨nofun, nofun⟩
  · intro domain pubkey username
    rw [usernameByPubkey_iff inv]
    constructor
    · rintro ⟨x, hx, rfl, rfl, hk, hspark⟩
      obtain ⟨r, hr, _, _, _, hkind, hprov, hpk⟩ := resolve_of_mem inv hx
      exact ⟨r, hr, hprov.unique (inv.spark_provider hspark), hkind.trans hk, (hpk _).mpr hspark⟩
    · rintro ⟨r, hr, _, hk, hpk⟩
      rcases resolve_cases inv domain username with
        hnone | ⟨x, hx, hd, hi, r', hr', _, hk', _, hpk'⟩
      · rw [hnone] at hr
        cases hr
      · rw [hr'] at hr
        cases hr
        exact ⟨x, hx, hd, hi, hk'.symm.trans hk, (hpk' _).mp hpk⟩

/-- A store reached by two registrations of one pubkey: the second name
replaces the first. -/
theorem account_store_consistent_renamed :
    let ctx : Ctx := ⟨7, "acct_spark_1"⟩
    let register (name : String) : RouteOp :=
      .upsertSparkRegistration "02aa" ⟨"blink.sv", name, .username, "Pay"⟩ none
    let s := (register "bob").after ⟨8, "acct_spark_2"⟩ ((register "alice").after ctx .empty)
    ∀ domain pubkey username,
      (getSparkUsernameByPubkey domain pubkey s).map SparkUsername.username = some username ↔
        ∃ r : ResolvedRecipient, resolveRecipientByIdentifier domain username s = .ok (some r) ∧
          r.provider = .spark ∧ r.identifierKind = .username ∧ r.sparkPubkey = some pubkey := by
  intro ctx register s
  have h₁ : AccountReachable ((register "alice").after ctx .empty) :=
    .step _ .empty fun _ ⟨_, ha, _⟩ => absurd ha (Table.not_mem_empty _)
  have hfresh : ∀ a ∈ ((register "alice").after ctx .empty).accounts.rows,
      a.accountId ≠ "acct_spark_2" := by decide
  have h₂ : AccountReachable s := .step _ h₁ fun _ ⟨a, ha, hid, _⟩ => hfresh a ha hid
  exact (account_store_consistent h₂).2.2.2.2

end AccountStore

end BlinkLnurl
