import BlinkLnurl.Lib.Names
import BlinkLnurl.Repository.AccountOps

/-!
# The stored addresses as a book of names

What the account tables are for: an address is a name in a domain, held by a
Spark key or a Blink account. The book of a store says who holds which. Every
committed transaction is one change of the book: a registration claims a name,
a transfer hands it over, an unregistration releases it, and a new Blink account
brings its own.
-/

namespace BlinkLnurl

open Rel Names

/-- Who is paid at an address. -/
inductive Payee
  | spark (pubkey : String)
  | blink (blinkAccountId : String)
deriving DecidableEq

abbrev AddressBook := Book String String Payee

namespace AccountStore

/-- The rows of `blink_accounts`, by their two keys. -/
def HasBlinkId (s : AccountStore) (accountId blinkAccountId : String) : Prop :=
  ∃ r ∈ s.blinkAccounts, r.accountId = accountId ∧ r.blinkAccountId = blinkAccountId

/-- The account is the payee's. -/
def Pays (s : AccountStore) (accountId : String) : Payee → Prop
  | .spark pubkey => s.HasSpark accountId pubkey
  | .blink blinkAccountId => s.HasBlinkId accountId blinkAccountId

def payeeOf (accountId : String) (s : AccountStore) : Option Payee :=
  match s.sparkAccountOf accountId with
  | some spark => some (.spark spark.pubkey)
  | none => (s.blinkAccountOf accountId).map fun blink => .blink blink.blinkAccountId

/-- The book of the stored addresses; usernames are primary. -/
def addressBook (s : AccountStore) : AddressBook := fun n =>
  (s.accountIdentifiers.get n).bind fun row =>
    (s.payeeOf row.accountId).map fun payee => ⟨payee, row.identifierKind = .username⟩

section View

variable {s s' : AccountStore} {id id' : String} {p p' : Payee} {n : String × String}
  {e : Entry Payee}

theorem blinkAccountOf_eq_some {r : BlinkAccount} :
    s.blinkAccountOf id = some r ↔ r ∈ s.blinkAccounts ∧ r.accountId = id := by
  constructor
  · intro h
    obtain ⟨hr, hp⟩ := Table.mem_of_find? h
    exact ⟨hr, of_decide_eq_true hp⟩
  · rintro ⟨hr, hp⟩
    refine Table.find?_eq_some_of_unique hr (decide_eq_true hp) fun r' hr' hp' => ?_
    exact Table.eq_of_clash hr' hr (Or.inl ((of_decide_eq_true hp').trans hp.symm))

theorem HasBlinkId.hasBlink {b : String} (h : s.HasBlinkId id b) : s.HasBlink id := by
  obtain ⟨r, hr, hid, _⟩ := h
  exact ⟨r, hr, hid⟩

/-- No account is both a Spark key's and a Blink account's. -/
theorem RepInv.not_both (inv : RepInv s) {pubkey b : String} (h : s.HasSpark id pubkey) :
    ¬ s.HasBlinkId id b := by
  intro h'
  have hclash := (inv.spark_provider h).unique (inv.blink_provider h'.hasBlink)
  cases hclash

theorem Pays.unique (inv : RepInv s) (h : s.Pays id p) (h' : s.Pays id p') : p = p' := by
  cases p with
  | spark pubkey =>
      cases p' with
      | spark pubkey' => exact congrArg Payee.spark (HasSpark.pubkey_unique h h')
      | blink b => exact absurd h' (inv.not_both h)
  | blink b =>
      cases p' with
      | spark pubkey => exact absurd h (inv.not_both h')
      | blink b' =>
          obtain ⟨r, hr, hid, rfl⟩ := h
          obtain ⟨r', hr', hid', rfl⟩ := h'
          rw [Table.eq_of_clash hr hr' (Or.inl (hid.trans hid'.symm))]

theorem Pays.account_unique (h : s.Pays id p) (h' : s.Pays id' p) : id = id' := by
  cases p with
  | spark pubkey => exact HasSpark.account_unique h h'
  | blink b =>
      obtain ⟨r, hr, rfl, hb⟩ := h
      obtain ⟨r', hr', rfl, hb'⟩ := h'
      rw [Table.eq_of_clash hr hr' (Or.inr (hb.trans hb'.symm))]

theorem payeeOf_eq_some (inv : RepInv s) : s.payeeOf id = some p ↔ s.Pays id p := by
  have hpays : ∀ {p}, s.payeeOf id = some p → s.Pays id p := by
    intro p h
    unfold payeeOf at h
    split at h
    · rename_i spark hspark
      obtain rfl := Option.some.inj h
      obtain ⟨hr, hid⟩ := sparkAccountOf_eq_some.mp hspark
      exact ⟨spark, hr, hid, rfl⟩
    · obtain ⟨blink, hblink, rfl⟩ := Option.map_eq_some_iff.mp h
      obtain ⟨hr, hid⟩ := blinkAccountOf_eq_some.mp hblink
      exact ⟨blink, hr, hid, rfl⟩
  refine ⟨hpays, fun h => ?_⟩
  -- some payee is found, and there is only one
  have hfound : ∃ p', s.payeeOf id = some p' := by
    unfold payeeOf
    cases p with
    | spark pubkey =>
        obtain ⟨r, hr, hid, _⟩ := h
        rw [sparkAccountOf_eq_some.mpr ⟨hr, hid⟩]
        exact ⟨_, rfl⟩
    | blink b =>
        obtain ⟨r, hr, hid, hrb⟩ := h
        rw [blinkAccountOf_eq_some.mpr ⟨hr, hid⟩]
        cases s.sparkAccountOf id <;> exact ⟨_, rfl⟩
  obtain ⟨p', hp'⟩ := hfound
  rw [hp', h.unique inv (hpays hp')]

/-- The book has an entry for each row. -/
theorem addressBook_eq_some (inv : RepInv s) : s.addressBook n = some e ↔
    ∃ row ∈ s.accountIdentifiers, Keyed.key row = n ∧ s.Pays row.accountId e.holder ∧
      e.primary = decide (row.identifierKind = .username) := by
  unfold addressBook
  rw [Option.bind_eq_some_iff]
  constructor
  · rintro ⟨row, hrow, hentry⟩
    obtain ⟨payee, hpayee, rfl⟩ := Option.map_eq_some_iff.mp hentry
    obtain ⟨hmem, hkey⟩ := Table.get_eq_some.mp hrow
    exact ⟨row, hmem, hkey, (payeeOf_eq_some inv).mp hpayee, rfl⟩
  · rintro ⟨row, hmem, hkey, hpays, hprimary⟩
    refine ⟨row, Table.get_eq_some.mpr ⟨hmem, hkey⟩, ?_⟩
    rw [(payeeOf_eq_some inv).mpr hpays, Option.map_some, ← hprimary]

/-- Every stored address has a holder. -/
theorem addressBook_eq_none (inv : RepInv s) : s.addressBook n = none ↔
    ∀ row ∈ s.accountIdentifiers, Keyed.key row ≠ n := by
  constructor
  · intro hnone row hrow hkey
    obtain ⟨provider, hprovider⟩ := inv.owner hrow
    have hpayee : ∃ p, s.Pays row.accountId p := by
      cases provider with
      | spark =>
          obtain ⟨pubkey, hpubkey⟩ := inv.spark_child hprovider
          exact ⟨.spark pubkey, hpubkey⟩
      | blink =>
          obtain ⟨r, hr, hid⟩ := inv.blink_child hprovider
          exact ⟨.blink r.blinkAccountId, r, hr, hid, rfl⟩
    obtain ⟨p, hp⟩ := hpayee
    have hsome := (addressBook_eq_some (e := ⟨p, decide (row.identifierKind = .username)⟩) inv).mpr
      ⟨row, hrow, hkey, hp, rfl⟩
    rw [hnone] at hsome
    cases hsome
  · intro hno
    refine Option.eq_none_iff_forall_ne_some.mpr fun e he => ?_
    obtain ⟨row, hrow, hkey, _⟩ := (addressBook_eq_some inv).mp he
    exact hno row hrow hkey

end View

/-! ## Effects on the book -/

/-- The accounts of the store keep their payees, and the Blink accounts are the
same. -/
structure KeepsPayees (s s' : AccountStore) : Prop where
  pays : ∀ {id provider}, s.HasProvider id provider → ∀ p, s'.Pays id p ↔ s.Pays id p
  blink : ∀ id b, s'.HasBlinkId id b ↔ s.HasBlinkId id b

section Effects

variable {s s' : AccountStore} {row : AccountIdentifier} {pubkey : String}

theorem KeepsPayees.same (same : SameAccounts s s')
    (hblink : ∀ id b, s'.HasBlinkId id b ↔ s.HasBlinkId id b) : KeepsPayees s s' where
  pays := fun {id} _ _ p => by
    cases p with
    | spark pubkey => exact same.spark id pubkey
    | blink b => exact hblink id b
  blink := hblink

theorem KeepsPayees.adds {accountId : String} (adds : AddsSpark s s' accountId pubkey)
    (hblink : ∀ id b, s'.HasBlinkId id b ↔ s.HasBlinkId id b) : KeepsPayees s s' where
  pays := fun {id provider} hprovider p => by
    cases p with
    | spark pubkey' =>
        refine (adds.spark id pubkey').trans ⟨fun h => h.resolve_right ?_, Or.inl⟩
        rintro ⟨rfl, _⟩
        exact adds.fresh provider hprovider
    | blink b => exact hblink id b
  blink := hblink

theorem KeepsPayees.ensures {accountId : String} (ens : EnsuresSpark s s' accountId pubkey)
    (hblink : ∀ id b, s'.HasBlinkId id b ↔ s.HasBlinkId id b) : KeepsPayees s s' := by
  cases ens with
  | stored _ _ same => exact .same same hblink
  | added adds => exact .adds adds hblink

/-- The rows are the same, and so are their payees. -/
theorem addressBook_kept (inv : RepInv s) (inv' : RepInv s') (keeps : KeepsPayees s s')
    (hids : s'.accountIdentifiers = s.accountIdentifiers) : s'.addressBook = s.addressBook := by
  refine funext fun n => Option.ext fun e => ?_
  rw [addressBook_eq_some inv, addressBook_eq_some inv', hids]
  refine exists_congr fun row => and_congr_right fun hrow => and_congr_right fun _ => ?_
  obtain ⟨_, hprovider⟩ := inv.owner hrow
  rw [keeps.pays hprovider]

/-- A row is assigned: so is its name. -/
theorem addressBook_assigns (inv : RepInv s) (inv' : RepInv s') (keeps : KeepsPayees s s')
    (hpays : s'.Pays row.accountId (.spark pubkey))
    (assigns : Assigns s.accountIdentifiers s'.accountIdentifiers row) :
    s'.addressBook = s.addressBook.assign (Keyed.key row)
      ⟨.spark pubkey, row.identifierKind = .username⟩ := by
  have hholder : ∀ {x p}, x ∈ s.accountIdentifiers → s'.Pays x.accountId p →
      (x.accountId = row.accountId ↔ p = .spark pubkey) := by
    intro x p _ hp
    constructor
    · intro hsame
      rw [hsame] at hp
      exact hp.unique inv' hpays
    · rintro rfl
      exact hp.account_unique hpays
  refine funext fun n => Option.ext fun e => ?_
  rw [addressBook_eq_some inv', Book.assign_eq_some, addressBook_eq_some inv]
  constructor
  · rintro ⟨x, hx, hkey, hp, hprimary⟩
    rcases (assigns x).mp hx with rfl | ⟨hold, hne, hother⟩
    · left
      refine ⟨hkey.symm, ?_⟩
      have hhold := hp.unique inv' hpays
      cases e
      exact congrArg₂ Entry.mk hhold hprimary
    · right
      obtain ⟨_, hprovider⟩ := inv.owner hold
      have hp₀ := (keeps.pays hprovider e.holder).mp hp
      refine ⟨fun heq => hne (hkey.trans heq), ⟨x, hold, hkey, hp₀, hprimary⟩, ?_⟩
      rintro ⟨hsame, hdomain, husername⟩
      refine hother ⟨(hholder hold hp).mpr hsame, ?_, ?_⟩
      · exact (congrArg Prod.fst hkey).trans hdomain
      · rw [hprimary] at husername
        exact of_decide_eq_true husername
  · rintro (⟨rfl, rfl⟩ | ⟨hne, ⟨x, hold, hkey, hp, hprimary⟩, hother⟩)
    · exact ⟨row, (assigns row).mpr (Or.inl rfl), rfl, hpays, rfl⟩
    · obtain ⟨_, hprovider⟩ := inv.owner hold
      have hp' := (keeps.pays hprovider e.holder).mpr hp
      refine ⟨x, (assigns x).mpr (Or.inr ⟨hold, fun heq => hne (hkey.symm.trans heq), ?_⟩),
        hkey, hp',
        hprimary⟩
      rintro ⟨hsame, hdomain, husername⟩
      refine hother ⟨(hholder hold hp').mp hsame, ?_, ?_⟩
      · exact (congrArg Prod.fst hkey).symm.trans hdomain
      · rw [hprimary, husername]
        rfl

/-- A row is dropped: its name is free. -/
theorem addressBook_releases (inv : RepInv s) (inv' : RepInv s') (keeps : KeepsPayees s s')
    (hrow : row ∈ s.accountIdentifiers)
    (hids : ∀ x, x ∈ s'.accountIdentifiers ↔ x ∈ s.accountIdentifiers ∧ x ≠ row) :
    s'.addressBook = s.addressBook.remove (Keyed.key row) := by
  refine funext fun n => Option.ext fun e => ?_
  rw [addressBook_eq_some inv', Book.remove_eq_some, addressBook_eq_some inv]
  constructor
  · rintro ⟨x, hx, hkey, hp, hprimary⟩
    obtain ⟨hold, hne⟩ := (hids x).mp hx
    obtain ⟨_, hprovider⟩ := inv.owner hold
    refine ⟨fun heq => hne ?_, x, hold, hkey, (keeps.pays hprovider _).mp hp, hprimary⟩
    exact Table.eq_of_key hold hrow (hkey.trans heq)
  · rintro ⟨hne, x, hold, hkey, hp, hprimary⟩
    obtain ⟨_, hprovider⟩ := inv.owner hold
    refine ⟨x, (hids x).mpr ⟨hold, ?_⟩, hkey, (keeps.pays hprovider _).mpr hp, hprimary⟩
    rintro rfl
    exact hne hkey.symm

end Effects

/-! ## Transactions and the book -/

section Transactions

variable {ctx : Ctx} {s s' : AccountStore}

theorem hasBlinkId_of_rows (h : s'.blinkAccounts = s.blinkAccounts) (id b : String) :
    s'.HasBlinkId id b ↔ s.HasBlinkId id b := by
  unfold HasBlinkId
  rw [h]

theorem insertSparkRows_blink {id pubkey : String} {now : Int}
    (h : insertSparkRows id pubkey now s = .ok s') : s'.blinkAccounts = s.blinkAccounts := by
  obtain ⟨_, _, h⟩ := bind_ok.mp h
  obtain ⟨_, _, h⟩ := bind_ok.mp h
  cases h
  rfl

theorem insertSparkAccount_blink {pubkey : String} (h : insertSparkAccount ctx pubkey s = .ok s') :
    s'.blinkAccounts = s.blinkAccounts := by
  obtain ⟨_, _, h⟩ := bind_ok.mp h
  split at h
  · cases h
    rfl
  · obtain ⟨_, _, h⟩ := bind_ok.mp h
    cases h
    rfl

theorem upsertSparkRegistration_blink {registration : NewSparkRegistration}
    (h : upsertSparkRegistration ctx registration s = .ok s') :
    s'.blinkAccounts = s.blinkAccounts := by
  obtain ⟨_, _, h⟩ := bind_ok.mp h
  obtain ⟨s₁, hclaim, h⟩ := bind_ok.mp h
  have hs₁ : s₁.blinkAccounts = s.blinkAccounts := by rw [(insertStatementClaim_ok hclaim).1]
  obtain ⟨_, _, h⟩ := bind_ok.mp h
  obtain ⟨_, _, h⟩ := bind_ok.mp h
  obtain ⟨_, _, h⟩ := bind_ok.mp h
  obtain ⟨_, _, h⟩ := bind_ok.mp h
  obtain ⟨_, _, h⟩ := bind_ok.mp h
  cases h
  exact hs₁

theorem deleteSparkRegistration_blink {domain pubkey identifier : String}
    {claim : Option StatementClaim}
    (h : deleteSparkRegistration ctx domain pubkey identifier claim s = .ok s') :
    s'.blinkAccounts = s.blinkAccounts := by
  obtain ⟨s₁, hclaim, h⟩ := bind_ok.mp h
  have hs₁ : s₁.blinkAccounts = s.blinkAccounts := by rw [(insertStatementClaim_ok hclaim).1]
  split at h
  · cases h
  · obtain ⟨_, _, h⟩ := bind_ok.mp h
    cases h
    exact hs₁

theorem handOver_blink {domain identifier source destination description : String}
    (h : handOver ctx domain identifier source destination description s = .ok s') :
    s'.blinkAccounts = s.blinkAccounts := by
  obtain ⟨⟨id, s₁⟩, hdestination, h⟩ := bind_ok.mp h
  have hs₁ : s₁.blinkAccounts = s.blinkAccounts := by
    unfold destinationAccount at hdestination
    simp only at hdestination
    split at hdestination
    · cases hdestination
      rfl
    · cases hdestination
    · obtain ⟨_, hrows, hsame⟩ := bind_ok.mp hdestination
      cases hsame
      exact insertSparkRows_blink hrows
  obtain ⟨_, _, h⟩ := bind_ok.mp h
  cases h
  exact hs₁

theorem transferIdentifier_blink {transfer : IdentifierTransfer}
    (h : transferIdentifier ctx transfer s = .ok s') : s'.blinkAccounts = s.blinkAccounts := by
  obtain ⟨s₁, hclaim, h⟩ := bind_ok.mp h
  have hs₁ : s₁.blinkAccounts = s.blinkAccounts := by rw [(insertStatementClaim_ok hclaim).1]
  obtain ⟨_, _, h⟩ := bind_ok.mp h
  obtain ⟨_, _, h⟩ := bind_ok.mp h
  exact (handOver_blink h).trans hs₁

theorem transferBlinkIdentifierToSpark_blink {transfer : BlinkToSparkIdentifierTransfer}
    (h : transferBlinkIdentifierToSpark ctx transfer s = .ok s') :
    s'.blinkAccounts = s.blinkAccounts := by
  obtain ⟨_, _, h⟩ := bind_ok.mp h
  obtain ⟨_, _, h⟩ := bind_ok.mp h
  exact handOver_blink h

theorem updateBlinkDefaultWallet_blink {blinkAccountId : String} {wallet : WalletKind}
    {out : UpdatedBlinkAccount}
    (h : updateBlinkDefaultWallet ctx blinkAccountId wallet s = .ok (out, s')) (id b : String) :
    s'.HasBlinkId id b ↔ s.HasBlinkId id b := by
  unfold updateBlinkDefaultWallet at h
  simp only at h
  split at h
  · cases h
  · cases h
    have hkeys : ∀ (p : BlinkAccount → Bool) (y : BlinkAccount),
        (Table.onRow p (fun r => { r with defaultWallet := wallet, updatedAt := ctx.now })
          y).accountId =
            y.accountId ∧
        (Table.onRow p (fun r => { r with defaultWallet := wallet, updatedAt := ctx.now })
            y).blinkAccountId = y.blinkAccountId := by
      intro p y
      unfold Table.onRow
      split
      · exact ⟨rfl, rfl⟩
      · exact ⟨rfl, rfl⟩
    constructor
    · rintro ⟨x, hx, hid, hb⟩
      obtain ⟨y, hy, rfl⟩ := List.mem_map.mp hx
      exact ⟨y, hy, (hkeys _ y).1.symm.trans hid, (hkeys _ y).2.symm.trans hb⟩
    · rintro ⟨y, hy, hid, hb⟩
      exact ⟨_, List.mem_map.mpr ⟨y, hy, rfl⟩, (hkeys _ y).1.trans hid, (hkeys _ y).2.trans hb⟩

/-- The row of one of a new account's identifiers. -/
def identifierRow (ctx : Ctx) (accountId : String) (ident : NewAccountIdentifier) :
    AccountIdentifier :=
  { accountId, domain := ident.domain, identifier := ident.identifier
    identifierKind := ident.identifierKind, description := ident.description
    createdAt := ctx.now, updatedAt := ctx.now }

theorem mem_insertIdentifiers {id : String} {idents : List NewAccountIdentifier}
    {ids ids' : Table AccountIdentifier} (h : insertIdentifiers ctx id idents ids = .ok ids')
    (x : AccountIdentifier) :
    x ∈ ids' ↔ x ∈ ids ∨ ∃ ident ∈ idents, x = identifierRow ctx id ident := by
  induction idents generalizing ids with
  | nil =>
      cases h
      simp
  | cons ident rest ih =>
      obtain ⟨ids₁, hins, h⟩ := bind_ok.mp h
      rw [ih h, Table.mem_insert (orGeneral_ok.mp hins)]
      simp only [List.mem_cons, exists_eq_or_imp, or_assoc]
      exact Iff.rfl

/-- A new Blink account: its keys were free, and so were its identifiers. -/
structure BringsIdentifiers (ctx : Ctx) (s s' : AccountStore) (account : NewBlinkAccount)
    (accountId : String) : Prop where
  fresh : ∀ p, ¬ s.HasProvider accountId p
  unused : ∀ id, ¬ s.HasBlinkId id account.blinkAccountId
  free : ∀ ident ∈ account.identifiers, ∀ row ∈ s.accountIdentifiers,
    Keyed.key row ≠ (ident.domain, ident.identifier)
  spark : ∀ id pk, s'.HasSpark id pk ↔ s.HasSpark id pk
  blink : ∀ id b, s'.HasBlinkId id b ↔
    s.HasBlinkId id b ∨ id = accountId ∧ b = account.blinkAccountId
  identifiers : ∀ x, x ∈ s'.accountIdentifiers ↔
    x ∈ s.accountIdentifiers ∨ ∃ ident ∈ account.identifiers, x = identifierRow ctx accountId ident

theorem createBlinkAccount_brings {account : NewBlinkAccount}
    (h : createBlinkAccount ctx account s = .ok s') :
    ∃ accountId, BringsIdentifiers ctx s s' account accountId := by
  unfold createBlinkAccount at h
  generalize account.accountId.getD ctx.generatedId = accountId at h
  simp only at h
  split at h
  · cases h
  · rename_i hnone
    obtain ⟨_, hunused, h⟩ := bind_ok.mp h
    obtain ⟨_, hfree, h⟩ := bind_ok.mp h
    obtain ⟨accounts, _, h⟩ := bind_ok.mp h
    obtain ⟨blinkAccounts, hblink, h⟩ := bind_ok.mp h
    obtain ⟨identifiers, hids, h⟩ := bind_ok.mp h
    cases h
    have hunused := ensure_ok.mp hunused
    have hfree := ensure_ok.mp hfree
    have hrows := fun x => Table.mem_insert (x := x) (orGeneral_ok.mp hblink)
    refine ⟨accountId, ⟨?_, ?_, ?_, fun _ _ => Iff.rfl, fun id b => ?_, mem_insertIdentifiers hids⟩⟩
    · rintro p ⟨a, ha, hid, _⟩
      exact Table.get_eq_none.mp hnone a ha hid
    · rintro id ⟨r, hr, _, hb⟩
      exact hunused r hr hb
    · intro ident hident row hrow hkey
      exact Table.get_eq_none.mp (hfree ident hident) row hrow hkey
    · constructor
      · rintro ⟨r, hr, hid, hb⟩
        rcases (hrows r).mp hr with hr | rfl
        · exact Or.inl ⟨r, hr, hid, hb⟩
        · exact Or.inr ⟨hid.symm, hb.symm⟩
      · rintro (⟨r, hr, hid, hb⟩ | ⟨rfl, rfl⟩)
        · exact ⟨r, (hrows r).mpr (Or.inl hr), hid, hb⟩
        · exact ⟨_, (hrows _).mpr (Or.inr rfl), rfl, rfl⟩

/-- Its addresses are free before and its own afterwards. -/
theorem addressBook_enrols (inv : RepInv s) (inv' : RepInv s') {account : NewBlinkAccount}
    {accountId : String} (brings : BringsIdentifiers ctx s s' account accountId) :
    Step s.addressBook (.enrol (.blink account.blinkAccountId) (account.identifiers.map fun ident =>
      ((ident.domain, ident.identifier), decide (ident.identifierKind = .username))))
      s'.addressBook := by
  have hnew : s'.Pays accountId (.blink account.blinkAccountId) :=
    (brings.blink _ _).mpr (Or.inr ⟨rfl, rfl⟩)
  have hkeep : ∀ {x p}, x ∈ s.accountIdentifiers →
      (s'.Pays x.accountId p ↔ s.Pays x.accountId p) := by
    intro x p hx
    cases p with
    | spark pubkey => exact brings.spark _ _
    | blink b =>
        refine (brings.blink _ _).trans ⟨fun h => h.resolve_right ?_, Or.inl⟩
        rintro ⟨hid, _⟩
        obtain ⟨provider, hprovider⟩ := inv.owner hx
        rw [hid] at hprovider
        exact brings.fresh provider hprovider
  refine .enrol ?_ ?_ ?_
  · intro n e he hholder
    obtain ⟨row, _, _, hp, _⟩ := (addressBook_eq_some inv).mp he
    rw [hholder] at hp
    exact brings.unused _ hp
  · intro named hnamed
    obtain ⟨ident, hident, rfl⟩ := List.mem_map.mp hnamed
    exact (addressBook_eq_none inv).mpr (brings.free ident hident)
  · intro n e
    rw [addressBook_eq_some inv, addressBook_eq_some inv']
    constructor
    · rintro ⟨x, hx, hkey, hp, hprimary⟩
      rcases (brings.identifiers x).mp hx with hold | ⟨ident, hident, rfl⟩
      · exact Or.inl ⟨x, hold, hkey, (hkeep hold).mp hp, hprimary⟩
      · have hholder := hp.unique inv' hnew
        refine Or.inr ⟨decide (ident.identifierKind = .username),
          List.mem_map.mpr ⟨ident, hident, ?_⟩, ?_⟩
        · exact Prod.ext hkey rfl
        · cases e
          exact congrArg₂ Entry.mk hholder hprimary
    · rintro (⟨x, hold, hkey, hp, hprimary⟩ | ⟨primary, hnamed, rfl⟩)
      · exact ⟨x, (brings.identifiers x).mpr (Or.inl hold), hkey, (hkeep hold).mpr hp, hprimary⟩
      · obtain ⟨ident, hident, hpair⟩ := List.mem_map.mp hnamed
        obtain ⟨rfl, rfl⟩ := Prod.mk.inj hpair
        exact ⟨_, (brings.identifiers _).mpr (Or.inr ⟨ident, hident, rfl⟩), rfl, hnew, rfl⟩

end Transactions

end AccountStore

end BlinkLnurl
