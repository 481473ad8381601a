import BlinkLnurl.Repository.Types
import Mathlib.Data.List.Sort

/-!
# Account operations of the SQLite repository

The account tables and the operations of `sqlite/repository.rs` on them. An
operation is one transaction: it ends in a result and the committed store, or
in an error, and then everything it wrote is rolled back.

`now()` and `generate_account_id` are read from the context `Ctx`.
`upsert_spark_mode` is not one transaction but four statements; they are kept
apart (`sparkAccountIdByPubkey`, `insertSparkAccount`, `updateSparkMode`,
`getSparkAccountMode`), and `upsertSparkMode` runs them in a row.
-/

namespace BlinkLnurl

open Rel

/-- What an operation reads besides the store: `now()`, and the account id
`generate_account_id` would return. -/
structure Ctx where
  now : Int
  generatedId : String

structure AccountStore where
  accounts : Table Account
  accountIdentifiers : Table AccountIdentifier
  sparkAccounts : Table SparkAccount
  blinkAccounts : Table BlinkAccount
  usedSignedMessages : Table UsedSignedMessage

namespace AccountStore

/-- A fresh database. -/
def empty : AccountStore := ⟨.empty, .empty, .empty, .empty, .empty⟩

/-! ## Reads -/

def accountOfPubkey (pubkey : String) (s : AccountStore) : Option SparkAccount :=
  s.sparkAccounts.find? fun r => r.pubkey = pubkey

def sparkAccountOf (accountId : String) (s : AccountStore) : Option SparkAccount :=
  s.sparkAccounts.find? fun r => r.accountId = accountId

def blinkAccountOf (accountId : String) (s : AccountStore) : Option BlinkAccount :=
  s.blinkAccounts.find? fun r => r.accountId = accountId

/-- The consistency checks of `map_resolved_recipient` on the joined row. -/
def mapResolvedRecipient (account : Account) (ident : AccountIdentifier)
    (spark : Option SparkAccount) (blink : Option BlinkAccount) :
    Except RepositoryError ResolvedRecipient :=
  let consistent : Bool :=
    match account.provider with
    | .spark => spark.isSome && blink.isNone
    | .blink => spark.isNone && blink.isSome
  if consistent then
    .ok
      { accountId := account.accountId
        provider := account.provider
        domain := ident.domain
        identifier := ident.identifier
        identifierKind := ident.identifierKind
        description := ident.description
        sparkPubkey := spark.map SparkAccount.pubkey
        blinkAccountId := blink.map BlinkAccount.blinkAccountId
        btcWalletId := blink.map BlinkAccount.btcWalletId
        usdWalletId := blink.map BlinkAccount.usdWalletId
        defaultWallet := blink.map BlinkAccount.defaultWallet }
  else .error .invalidOwnership

/-- `account_identifiers JOIN accounts LEFT JOIN spark_accounts LEFT JOIN
blink_accounts`, at most one row by the unique indexes. -/
def resolveRecipientByIdentifier (domain identifier : String) (s : AccountStore) :
    Except RepositoryError (Option ResolvedRecipient) :=
  match s.accountIdentifiers.get (domain, identifier) with
  | none => .ok none
  | some ident =>
      match s.accounts.get ident.accountId with
      | none => .ok none
      | some account =>
          (mapResolvedRecipient account ident (s.sparkAccountOf account.accountId)
            (s.blinkAccountOf account.accountId)).map some

/-- `ORDER BY updated_at DESC, identifier ASC`. -/
def usernameOrder (a b : AccountIdentifier) : Bool :=
  b.updatedAt < a.updatedAt || (a.updatedAt == b.updatedAt && decide (a.identifier ≤ b.identifier))

def getSparkUsernameByPubkey (domain pubkey : String) (s : AccountStore) : Option SparkUsername :=
  match s.accountOfPubkey pubkey with
  | none => none
  | some spark =>
      match s.accounts.get spark.accountId with
      | none => none
      | some account =>
          if account.provider = .spark then
            let rows := s.accountIdentifiers.select fun r =>
              r.accountId = account.accountId && r.domain = domain && r.identifierKind = .username
            (rows.insertionSort fun a b => usernameOrder a b).head?.map fun r =>
              { domain := domain
                pubkey := spark.pubkey
                username := r.identifier
                description := r.description }
          else none

def getAccountBySparkPubkey (pubkey : String) (s : AccountStore) : Option Account :=
  match s.accountOfPubkey pubkey with
  | none => none
  | some spark => s.accounts.get spark.accountId

def getSparkAccountMode (pubkey : String) (s : AccountStore) : Option SparkAccountMode :=
  (s.accountOfPubkey pubkey).map fun r =>
    { accountId := r.accountId
      pubkey := r.pubkey
      mode := r.mode
      modeSource := r.modeSource
      modeUpdatedAt := r.modeUpdatedAt
      modeLastTimestamp := r.modeLastTimestamp
      country := r.country
      countryUpdatedAt := r.countryUpdatedAt }

/-! ## Statements shared by the transactions -/

/-- A `spark_accounts` row as first inserted; the mode columns start out
`NULL`. -/
def newSparkAccount (accountId pubkey : String) (now : Int) : SparkAccount :=
  { accountId, pubkey, mode := none, modeSource := none, modeUpdatedAt := none
    modeLastTimestamp := none, country := none, countryUpdatedAt := none
    createdAt := now, updatedAt := now }

/-- `insert_statement_claim`, with the refusal its callers turn a conflict
into. -/
def insertStatementClaim (ctx : Ctx) (claim : Option StatementClaim) (s : AccountStore) :
    Except RepositoryError AccountStore :=
  match claim with
  | none => .ok s
  | some claim =>
      match s.usedSignedMessages.insert
          ⟨claim.statementHash, claim.route, claim.expiresAt, ctx.now⟩ with
      | some used => .ok { s with usedSignedMessages := used }
      | none => .error .statementAlreadyUsed

/-- A statement that violates a constraint is a database error. -/
def orGeneral {α : Type} : Option α → Except RepositoryError α
  | some a => .ok a
  | none => .error .general

/-- An early return of `e` unless `c`. -/
def ensure (c : Prop) [Decidable c] (e : RepositoryError) : Except RepositoryError Unit :=
  if c then .ok () else .error e

/-- `DELETE FROM account_identifiers WHERE account_id = … AND domain = … AND
identifier_kind = 'username' AND identifier <> …`. -/
def deleteOtherUsernames (accountId domain identifier : String)
    (identifiers : Table AccountIdentifier) : Table AccountIdentifier :=
  identifiers.delete fun r =>
    r.accountId = accountId && r.domain = domain && r.identifierKind = .username &&
      r.identifier != identifier

/-- Insert the account rows of a pubkey seen for the first time. -/
def insertSparkRows (accountId pubkey : String) (now : Int) (s : AccountStore) :
    Except RepositoryError AccountStore := do
  let accounts ← orGeneral (s.accounts.insert ⟨accountId, .spark, now, now⟩)
  let sparkAccounts ← orGeneral (s.sparkAccounts.insert (newSparkAccount accountId pubkey now))
  return { s with accounts, sparkAccounts }

/-! ## Transactions -/

/-- The account a registration is for: the one it names, else the one of its
pubkey, else a new one. -/
def registrationAccountId (ctx : Ctx) (registration : NewSparkRegistration) (s : AccountStore) :
    String :=
  match registration.accountId with
  | some accountId => accountId
  | none =>
      match s.accountOfPubkey registration.pubkey with
      | some r => r.accountId
      | none => ctx.generatedId

def upsertSparkRegistration (ctx : Ctx) (registration : NewSparkRegistration) (s : AccountStore) :
    Except RepositoryError AccountStore := do
  registration.validate
  let s ← insertStatementClaim ctx registration.claim s
  let domain := registration.identifier.domain
  let identifier := registration.identifier.identifier
  let accountId := registrationAccountId ctx registration s
  ensure (∀ a, s.accounts.get accountId = some a → a.provider = .spark) .invalidProvider
  ensure (∀ r, s.accountIdentifiers.get (domain, identifier) = some r → r.accountId = accountId)
    .identifierConflict
  ensure (∀ r, s.accountOfPubkey registration.pubkey = some r → r.accountId = accountId)
    .invalidOwnership
  let identifiers := deleteOtherUsernames accountId domain identifier s.accountIdentifiers
  let accounts := s.accounts.upsert ⟨accountId, .spark, ctx.now, ctx.now⟩
    (fun a => { a with provider := .spark, updatedAt := ctx.now }) fun _ => rfl
  let sparkAccounts ← orGeneral <| s.sparkAccounts.insertOrUpdate
    (fun r => r.accountId = accountId)
    (fun r => { r with pubkey := registration.pubkey, updatedAt := ctx.now })
    (newSparkAccount accountId registration.pubkey ctx.now)
  let identifiers ← orGeneral <| identifiers.insertOrUpdate
    (fun r => r.accountId = accountId && r.domain = domain && r.identifier = identifier)
    (fun r => { r with
      identifierKind := registration.identifier.identifierKind
      description := registration.identifier.description
      updatedAt := ctx.now })
    { accountId, domain, identifier
      identifierKind := registration.identifier.identifierKind
      description := registration.identifier.description
      createdAt := ctx.now, updatedAt := ctx.now }
  return { s with accounts, sparkAccounts, accountIdentifiers := identifiers }

def deleteSparkRegistration (ctx : Ctx) (domain pubkey identifier : String)
    (claim : Option StatementClaim) (s : AccountStore) : Except RepositoryError AccountStore := do
  let s ← insertStatementClaim ctx claim s
  match s.accountOfPubkey pubkey with
  | none => .error .sourceNotOwner
  | some spark => do
      let named : AccountIdentifier → Bool := fun r =>
        r.accountId = spark.accountId && r.domain = domain && r.identifier = identifier
      ensure (s.accountIdentifiers.affected named ≠ 0) .sourceNotOwner
      return { s with accountIdentifiers := s.accountIdentifiers.delete named }

/-- The account a transfer goes to, created for a pubkey seen for the first
time. -/
def destinationAccount (ctx : Ctx) (pubkey : String) (s : AccountStore) :
    Except RepositoryError (String × AccountStore) :=
  let stored : Option (String × AccountProvider) := (s.accountOfPubkey pubkey).bind fun r =>
    (s.accounts.get r.accountId).map fun a => (r.accountId, a.provider)
  match stored with
  | some (accountId, .spark) => .ok (accountId, s)
  | some (_, .blink) => .error .invalidProvider
  | none => do return (ctx.generatedId, ← insertSparkRows ctx.generatedId pubkey ctx.now s)

/-- The part of `transfer_identifier` and `transfer_blink_identifier_to_spark`
after their checks of the source: find or create the destination account, hand
the identifier over, delete the destination's other usernames. -/
def handOver (ctx : Ctx) (domain identifier sourceAccountId destinationSparkPubkey
    description : String) (s : AccountStore) : Except RepositoryError AccountStore := do
  let (destinationAccountId, s) ← destinationAccount ctx destinationSparkPubkey s
  let named : AccountIdentifier → Bool := fun r =>
    r.domain = domain && r.identifier = identifier && r.accountId = sourceAccountId
  ensure (s.accountIdentifiers.affected named = 1) .sourceNotOwner
  let identifiers := s.accountIdentifiers.update named
    (fun r => { r with accountId := destinationAccountId, description, updatedAt := ctx.now })
    fun _ => rfl
  return { s with
    accountIdentifiers := deleteOtherUsernames destinationAccountId domain identifier identifiers }

def transferIdentifier (ctx : Ctx) (transfer : IdentifierTransfer) (s : AccountStore) :
    Except RepositoryError AccountStore := do
  let s ← insertStatementClaim ctx transfer.claim s
  let source := s.accountIdentifiers.get (transfer.domain, transfer.identifier)
  ensure (source.map AccountIdentifier.accountId = some transfer.sourceAccountId) .sourceNotOwner
  ensure ((s.accounts.get transfer.sourceAccountId).map Account.provider = some .spark ∧
    (s.sparkAccountOf transfer.sourceAccountId).isSome) .invalidOwnership
  handOver ctx transfer.domain transfer.identifier transfer.sourceAccountId
    transfer.destinationSparkPubkey transfer.description s

def transferBlinkIdentifierToSpark (ctx : Ctx) (transfer : BlinkToSparkIdentifierTransfer)
    (s : AccountStore) : Except RepositoryError AccountStore := do
  let source := s.accountIdentifiers.get (transfer.domain, transfer.identifier)
  ensure (source.map AccountIdentifier.accountId = some transfer.sourceAccountId) .sourceNotOwner
  ensure ((s.accounts.get transfer.sourceAccountId).map Account.provider = some .blink ∧
    (s.blinkAccountOf transfer.sourceAccountId).isSome) .invalidOwnership
  handOver ctx transfer.domain transfer.identifier transfer.sourceAccountId
    transfer.destinationSparkPubkey transfer.description s

/-- The inserts of `create_blink_account`'s identifiers. -/
def insertIdentifiers (ctx : Ctx) (accountId : String) :
    List NewAccountIdentifier → Table AccountIdentifier →
      Except RepositoryError (Table AccountIdentifier)
  | [], identifiers => .ok identifiers
  | ident :: rest, identifiers => do
      let identifiers ← orGeneral <| identifiers.insert
        { accountId, domain := ident.domain, identifier := ident.identifier
          identifierKind := ident.identifierKind, description := ident.description
          createdAt := ctx.now, updatedAt := ctx.now }
      insertIdentifiers ctx accountId rest identifiers

/-- What `create_blink_account` returns for an account id that is taken. -/
def existingAccountError (account : NewBlinkAccount) (stored : Account)
    (existing : Option BlinkAccount) : RepositoryError :=
  if stored.provider ≠ .blink then .invalidProvider
  else
    match existing with
    | none => .invalidOwnership
    | some existing =>
        if existing.blinkAccountId ≠ account.blinkAccountId ∨
            existing.btcWalletId ≠ account.btcWalletId ∨
            existing.usdWalletId ≠ account.usdWalletId ∨
            existing.defaultWallet ≠ account.defaultWallet then .invalidOwnership
        else .blinkAccountExists

def createBlinkAccount (ctx : Ctx) (account : NewBlinkAccount) (s : AccountStore) :
    Except RepositoryError AccountStore := do
  let accountId := account.accountId.getD ctx.generatedId
  match s.accounts.get accountId with
  | some stored => .error (existingAccountError account stored (s.blinkAccountOf accountId))
  | none => do
      ensure (∀ r ∈ s.blinkAccounts.rows, r.blinkAccountId ≠ account.blinkAccountId)
        .blinkAccountExists
      ensure (∀ ident ∈ account.identifiers,
        s.accountIdentifiers.get (ident.domain, ident.identifier) = none) .identifierConflict
      let accounts ← orGeneral (s.accounts.insert ⟨accountId, .blink, ctx.now, ctx.now⟩)
      let blinkAccounts ← orGeneral <| s.blinkAccounts.insert
        { accountId, blinkAccountId := account.blinkAccountId, btcWalletId := account.btcWalletId
          usdWalletId := account.usdWalletId, defaultWallet := account.defaultWallet
          createdAt := ctx.now, updatedAt := ctx.now }
      let identifiers ← insertIdentifiers ctx accountId account.identifiers s.accountIdentifiers
      return { s with accounts, blinkAccounts, accountIdentifiers := identifiers }

/-! ## Single statements -/

/-- An update of `spark_accounts` columns other than the two keys. -/
def updateSpark (p : SparkAccount → Bool) (f : SparkAccount → SparkAccount)
    (hf : ∀ r, (f r).accountId = r.accountId ∧ (f r).pubkey = r.pubkey) (s : AccountStore) :
    AccountStore :=
  { s with
    sparkAccounts := s.sparkAccounts.modify p f <| by
      have hkeys : ∀ r, (Table.onRow p f r).accountId = r.accountId ∧
          (Table.onRow p f r).pubkey = r.pubkey := by
        intro r
        unfold Table.onRow
        split
        · exact hf r
        · exact ⟨rfl, rfl⟩
      intro a b hc
      rcases hc with hc | hc
      · exact Or.inl ((hkeys a).1.symm.trans (hc.trans (hkeys b).1))
      · exact Or.inr ((hkeys a).2.symm.trans (hc.trans (hkeys b).2)) }

def refreshSparkCountryEvidence (ctx : Ctx) (pubkey country : String) (s : AccountStore) :
    AccountStore :=
  s.updateSpark (fun r => r.pubkey = pubkey && r.mode = some .enhanced)
    (fun r => { r with
      country := some country, countryUpdatedAt := some ctx.now, updatedAt := ctx.now })
    fun _ => ⟨rfl, rfl⟩

def setSparkModeEnhancedIfUnset (ctx : Ctx) (pubkey : String) (s : AccountStore) : AccountStore :=
  s.updateSpark (fun r => r.pubkey = pubkey && r.mode = none)
    (fun r => { r with
      mode := some .enhanced, modeSource := some .migration, modeUpdatedAt := some ctx.now
      updatedAt := ctx.now })
    fun _ => ⟨rfl, rfl⟩

def updateBlinkDefaultWallet (ctx : Ctx) (blinkAccountId : String) (defaultWallet : WalletKind)
    (s : AccountStore) : Except RepositoryError (UpdatedBlinkAccount × AccountStore) :=
  let named : BlinkAccount → Bool := fun r =>
    r.blinkAccountId = blinkAccountId &&
      (s.accounts.get r.accountId).any fun a => a.provider = .blink
  match s.blinkAccounts.find? named with
  | none => .error .accountNotFound
  | some row =>
      .ok (⟨row.accountId, row.blinkAccountId, defaultWallet⟩,
        { s with
          blinkAccounts := s.blinkAccounts.modify named
            (fun r => { r with defaultWallet, updatedAt := ctx.now }) <| by
              intro a b hc
              unfold Table.onRow at hc
              split at hc <;> split at hc <;> exact hc })

/-- The claims `DELETE … WHERE expires_at < now` drops. -/
def expired (now : Int) (r : UsedSignedMessage) : Bool := r.expiresAt < now

def deleteExpiredSignedMessages (now : Int) (s : AccountStore) : Nat × AccountStore :=
  (s.usedSignedMessages.affected (expired now),
    { s with usedSignedMessages := s.usedSignedMessages.delete (expired now) })

/-! ## `upsert_spark_mode`, statement by statement -/

/-- `ensure_spark_account`'s first look for the pubkey. -/
def sparkAccountIdByPubkey (pubkey : String) (s : AccountStore) : Option String :=
  (s.accountOfPubkey pubkey).map SparkAccount.accountId

/-- `ensure_spark_account`'s transaction: nothing is written if another first
contact won. -/
def insertSparkAccount (ctx : Ctx) (pubkey : String) (s : AccountStore) :
    Except RepositoryError AccountStore := do
  let accounts ← orGeneral (s.accounts.insert ⟨ctx.generatedId, .spark, ctx.now, ctx.now⟩)
  match s.accountOfPubkey pubkey with
  | some _ => return s
  | none =>
      let sparkAccounts ← orGeneral <|
        s.sparkAccounts.insert (newSparkAccount ctx.generatedId pubkey ctx.now)
      return { s with accounts, sparkAccounts }

/-- The guarded `UPDATE` of `upsert_spark_mode`; `false` when no row was newer
than the stored anchor. -/
def updateSparkMode (ctx : Ctx) (update : SparkModeUpdate) (s : AccountStore) :
    Bool × AccountStore :=
  let country := match update.mode with
    | .anon => none
    | .enhanced => update.country
  let writeCountry := update.mode = .anon || country.isSome
  let named : SparkAccount → Bool := fun r =>
    r.pubkey = update.pubkey && r.modeLastTimestamp.all fun t => t < update.clientTimestamp
  (decide (s.sparkAccounts.affected named ≠ 0),
    s.updateSpark named
      (fun r => { r with
        mode := some update.mode
        modeSource := some (if r.mode = none then .signup else .switch)
        modeUpdatedAt := some ctx.now
        modeLastTimestamp := some update.clientTimestamp
        country := if writeCountry then country else r.country
        countryUpdatedAt :=
          if writeCountry then country.map fun _ => ctx.now else r.countryUpdatedAt
        updatedAt := ctx.now })
      fun _ => ⟨rfl, rfl⟩)

/-- The four statements in a row, with nothing in between. The first error is
returned; the account rows stay. -/
def upsertSparkMode (ctx : Ctx) (update : SparkModeUpdate) (s : AccountStore) :
    Except RepositoryError Unit × AccountStore :=
  let ensured : Except RepositoryError AccountStore :=
    match s.sparkAccountIdByPubkey update.pubkey with
    | some _ => .ok s
    | none => insertSparkAccount ctx update.pubkey s
  match ensured with
  | .error e => (.error e, s)
  | .ok s =>
      match updateSparkMode ctx update s with
      | (true, s) => (.ok (), s)
      | (false, s) => (classifyRefusedModeWrite (s.getSparkAccountMode update.pubkey) update, s)

end AccountStore

end BlinkLnurl
