import BlinkLnurl.Lib.Versions
import BlinkLnurl.Lib.Prog
import BlinkLnurl.Lib.LastWrite
import BlinkLnurl.Repository.Accounts

/-!
# Statements of the PostgreSQL repository

The account tables while transactions are open, and what one statement of
`postgresql/repository.rs` does to them at READ COMMITTED, the isolation level of
`pool.begin()`. A thread runs one transaction, and its number names it.

* A `Query` is answered from the rows its transaction sees.
* A `Change` is one `INSERT`, or an `UPDATE` or a `DELETE` at one row; it waits for the
  locks and keys that other transactions hold.
* An `UPDATE` or a `DELETE` is a `Scan`, which sees what is committed when the statement
  begins, and then a `Change` for each row found, in any order.
* Any of them may fail, as the victim of a deadlock does, and so may a commit: it may
  have no effect, or it may take effect and the client never hear of it.

Foreign keys are left out: an account that a row refers to is committed or the
transaction's own, no statement deletes one, and the lock that a foreign key takes on it
does not conflict with their updates.
-/

namespace BlinkLnurl

open Rel Conc

namespace Postgres

structure Database where
  accounts : Versions Account
  accountIdentifiers : Versions AccountIdentifier
  sparkAccounts : Versions SparkAccount
  blinkAccounts : Table BlinkAccount
  usedSignedMessages : Versions UsedSignedMessage

namespace Database

/-- A store with no transaction open. -/
def ofStore (s : AccountStore) : Database where
  accounts := .ofTable s.accounts
  accountIdentifiers := .ofTable s.accountIdentifiers
  sparkAccounts := .ofTable s.sparkAccounts
  blinkAccounts := s.blinkAccounts
  usedSignedMessages := .ofTable s.usedSignedMessages

/-- What the transaction `t` sees. -/
def view (t : Nat) (db : Database) : AccountStore where
  accounts := db.accounts.view t
  accountIdentifiers := db.accountIdentifiers.view t
  sparkAccounts := db.sparkAccounts.view t
  blinkAccounts := db.blinkAccounts
  usedSignedMessages := db.usedSignedMessages.view t

/-- What is committed. -/
def committed (db : Database) : AccountStore where
  accounts := db.accounts.committed
  accountIdentifiers := db.accountIdentifiers.committed
  sparkAccounts := db.sparkAccounts.committed
  blinkAccounts := db.blinkAccounts
  usedSignedMessages := db.usedSignedMessages.committed

def commit (t : Nat) (db : Database) : Database :=
  { db with
    accounts := db.accounts.commit t
    accountIdentifiers := db.accountIdentifiers.commit t
    sparkAccounts := db.sparkAccounts.commit t
    usedSignedMessages := db.usedSignedMessages.commit t }

def rollback (t : Nat) (db : Database) : Database :=
  { db with
    accounts := db.accounts.rollback t
    accountIdentifiers := db.accountIdentifiers.rollback t
    sparkAccounts := db.sparkAccounts.rollback t
    usedSignedMessages := db.usedSignedMessages.rollback t }

/-- A commit leaves what the transaction saw. -/
theorem committed_commit {t : Nat} {db : Database} : (db.commit t).committed = db.view t := by
  simp only [committed, commit, view, Versions.committed_commit]

theorem committed_rollback {t : Nat} {db : Database} :
    (db.rollback t).committed = db.committed := by
  simp only [committed, rollback, Versions.committed_rollback]

end Database

/-! ## Queries -/

/-- The `SELECT`s of the two transactions. -/
inductive Query
  | sparkAccountIdByPubkey (pubkey : String)
  | providerOf (accountId : String)
  | identifierOwner (domain identifier : String)
  | sourcePubkey (accountId : String)
  | destinationAccount (pubkey : String)
  | hasSparkChild (accountId : String)

namespace Query

abbrev Answer : Query → Type
  | sparkAccountIdByPubkey _ => Option String
  | providerOf _ => Option AccountProvider
  | identifierOwner _ _ => Option String
  | sourcePubkey _ => Option String
  | destinationAccount _ => Option (String × AccountProvider)
  | hasSparkChild _ => Bool

def answer (s : AccountStore) : (q : Query) → q.Answer
  | sparkAccountIdByPubkey pubkey => s.sparkAccountIdByPubkey pubkey
  | providerOf accountId => (s.accounts.get accountId).map Account.provider
  | identifierOwner domain identifier =>
      (s.accountIdentifiers.get (domain, identifier)).map AccountIdentifier.accountId
  | sourcePubkey accountId =>
      if (s.accounts.get accountId).map Account.provider = some .spark then
        (s.sparkAccountOf accountId).map SparkAccount.pubkey
      else none
  | destinationAccount pubkey =>
      (s.accountOfPubkey pubkey).bind fun r =>
        (s.accounts.get r.accountId).map fun a => (r.accountId, a.provider)
  | hasSparkChild accountId =>
      (s.accounts.get accountId).map Account.provider = some .spark ∧
        (s.sparkAccountOf accountId).isSome

end Query

/-! ## Changes -/

/-- The row that `UPDATE account_identifiers` is after, and what becomes of it. -/
structure Reassignment where
  domain : String
  identifier : String
  sourceAccountId : String
  destinationAccountId : String
  description : String
  now : Int

/-- `WHERE domain = $1 AND identifier = $2 AND account_id = $6`. -/
def Reassignment.names (a : Reassignment) (r : AccountIdentifier) : Bool :=
  r.domain = a.domain && r.identifier = a.identifier && r.accountId = a.sourceAccountId

def Reassignment.apply (a : Reassignment) (r : AccountIdentifier) : AccountIdentifier :=
  { r with
    accountId := a.destinationAccountId, description := a.description, updatedAt := a.now }

/-- The account, the domain and the username that a transaction is about. -/
structure Name where
  accountId : String
  domain : String
  identifier : String
deriving DecidableEq

/-- `WHERE account_id = $1 AND domain = $2 AND identifier_kind = 'username' AND
identifier <> $3`. -/
def Name.others (n : Name) (r : AccountIdentifier) : Bool :=
  r.accountId = n.accountId && r.domain = n.domain && r.identifierKind = .username &&
    r.identifier != n.identifier

inductive Change
  | insertStatementClaim (claim : StatementClaim) (now : Int)
  | insertAccount (accountId : String) (now : Int)
  | insertSparkAccount (accountId pubkey : String) (now : Int)
  | upsertAccount (accountId : String) (now : Int)
  | upsertSparkAccount (accountId pubkey : String) (now : Int)
  | upsertIdentifier (accountId : String) (identifier : NewAccountIdentifier) (now : Int)
  | reassign (a : Reassignment) (rowId : Nat)
  | deleteOther (n : Name) (rowId : Nat)

namespace Change

/-- `rows_affected() == 1` where the program asks for it. -/
abbrev Result : Change → Type
  | insertStatementClaim _ _ => Bool
  | reassign _ _ => Bool
  | _ => Unit

/-- The row that `INSERT INTO account_identifiers` is about. -/
def namedBy (accountId : String) (identifier : NewAccountIdentifier) (r : AccountIdentifier) :
    Bool :=
  r.accountId = accountId && r.domain = identifier.domain && r.identifier = identifier.identifier

def apply (t : Nat) (db : Database) : (c : Change) → Attempt (c.Result × Database)
  | insertStatementClaim claim now =>
      (db.usedSignedMessages.insertOrIgnore t
        ⟨claim.statementHash, claim.route, claim.expiresAt, now⟩).map fun (inserted, rows) =>
          (inserted, { db with usedSignedMessages := rows })
  | insertAccount accountId now =>
      (db.accounts.insert t ⟨accountId, .spark, now, now⟩).map fun rows =>
        ((), { db with accounts := rows })
  | insertSparkAccount accountId pubkey now =>
      (db.sparkAccounts.insert t
        (AccountStore.newSparkAccount accountId pubkey now)).map fun rows =>
          ((), { db with sparkAccounts := rows })
  | upsertAccount accountId now =>
      (db.accounts.insertOrUpdate t (fun a => a.accountId = accountId)
        (fun a => { a with provider := .spark, updatedAt := now })
        ⟨accountId, .spark, now, now⟩).map fun rows => ((), { db with accounts := rows })
  | upsertSparkAccount accountId pubkey now =>
      (db.sparkAccounts.insertOrUpdate t (fun r => r.accountId = accountId)
        (fun r => { r with pubkey, updatedAt := now })
        (AccountStore.newSparkAccount accountId pubkey now)).map fun rows =>
          ((), { db with sparkAccounts := rows })
  | upsertIdentifier accountId identifier now =>
      (db.accountIdentifiers.insertOrUpdate t (namedBy accountId identifier)
        (fun r => { r with
          identifierKind := identifier.identifierKind
          description := identifier.description
          updatedAt := now })
        { accountId, domain := identifier.domain, identifier := identifier.identifier
          identifierKind := identifier.identifierKind, description := identifier.description
          createdAt := now, updatedAt := now }).map fun rows =>
            ((), { db with accountIdentifiers := rows })
  | reassign a rowId =>
      (db.accountIdentifiers.updateRow t rowId a.names a.apply).map fun (updated, rows) =>
        (updated, { db with accountIdentifiers := rows })
  | deleteOther n rowId =>
      (db.accountIdentifiers.deleteRow t rowId n.others).map fun rows =>
        ((), { db with accountIdentifiers := rows })

end Change

/-! ## Scans -/

/-- The first part of `UPDATE` and of `DELETE`. -/
inductive Scan
  | reassign (a : Reassignment)
  | deleteOthers (n : Name)

def Scan.rows (t : Nat) (db : Database) : Scan → List Nat
  | reassign a => db.accountIdentifiers.scan t a.names
  | deleteOthers n => db.accountIdentifiers.scan t n.others

/-! ## Commits -/

/-- Both are rows of a username, and of the same one of the same account. -/
def SameUsername (r r' : AccountIdentifier) : Prop :=
  r.identifierKind = .username ∧ r'.identifierKind = .username ∧ r.accountId = r'.accountId ∧
    r.domain = r'.domain ∧ r.identifier = r'.identifier

instance {r r' : AccountIdentifier} : Decidable (SameUsername r r') :=
  inferInstanceAs (Decidable (r.identifierKind = .username ∧ r'.identifierKind = .username ∧
    r.accountId = r'.accountId ∧ r.domain = r'.domain ∧ r.identifier = r'.identifier))

/-- The username rows that the transaction `t` has written, less those that were
committed as the same username of the same account: what its commit gives. -/
def given (t : Nat) (db : Database) : List AccountIdentifier :=
  (db.accountIdentifiers.versions.filter fun v =>
    v.writer = some t && v.eraser != some t && v.row.identifierKind = .username &&
      db.accountIdentifiers.versions.all fun w =>
        !(w.writer = none && w.rowId = v.rowId && SameUsername w.row v.row)).map Version.row

/-- How a commit ends: the client hears of it, it takes effect but the client does not
hear of it, or it fails. -/
inductive CommitFate
  | heard
  | unheard
  | failed

/-- How a commit has ended; the log keeps what it gave. -/
inductive Committing
  | heard (given : List AccountIdentifier)
  | unheard (given : List AccountIdentifier)
  | failed

/-- The usernames that the commit gave. -/
def Committing.given : Committing → List AccountIdentifier
  | heard given => given
  | unheard given => given
  | failed => []

def runCommit (t : Nat) (db : Database) : CommitFate → Committing × Database
  | .heard => (.heard (given t db), db.commit t)
  | .unheard => (.unheard (given t db), db.commit t)
  | .failed => (.failed, db.rollback t)

/-! ## Statements -/

inductive Statement
  | now
  | generateAccountId
  | begin
  | query (q : Query)
  | change (c : Change)
  | scan (s : Scan)
  | commit
  | rollback

abbrev Reply : Statement → Type
  | .now => Int
  | .generateAccountId => String
  | .begin => Except RepositoryError Unit
  | .query q => Except RepositoryError q.Answer
  | .change c => Except RepositoryError c.Result
  | .scan _ => Except RepositoryError (List Nat)
  | .commit => Committing
  | .rollback => Unit

/-- What is open about a statement: the values of `now()` and `generate_account_id`,
whether it fails, and the order in which a scan finds its rows. -/
abbrev Choice : Statement → Type
  | .now => Int
  | .generateAccountId => String
  | .begin => Bool
  | .query _ => Bool
  | .change _ => Bool
  | .scan _ => Option (List Nat)
  | .commit => CommitFate
  | .rollback => Unit

/-- `none` while the statement waits. -/
def execChange (t : Nat) (c : Change) (fails : Bool) (db : Database) :
    Option (Except RepositoryError c.Result × Database) :=
  if fails then some (.error .general, db)
  else
    match c.apply t db with
    | .done (result, db') => some (.ok result, db')
    | .refused => some (.error .general, db)
    | .waits => none

def execScan (t : Nat) (s : Scan) (order : Option (List Nat)) (db : Database) :
    Option (Except RepositoryError (List Nat) × Database) :=
  match order with
  | none => some (.error .general, db)
  | some rows => if rows.Perm (s.rows t db) then some (.ok rows, db) else none

def exec (t : Nat) : (c : Statement) → Choice c → Database → Option (Reply c × Database)
  | .now, now, db => some (now, db)
  | .generateAccountId, accountId, db => some (accountId, db)
  | .begin, fails, db => some (if fails then .error .general else .ok (), db)
  | .query q, fails, db =>
      some (if fails then .error .general else .ok (q.answer (db.view t)), db)
  | .change c, fails, db => execChange t c fails db
  | .scan s, order, db => execScan t s order db
  | .commit, fate, db => some (runCommit t db fate)
  | .rollback, (), db => some ((), db.rollback t)

/-- Threads that run one transaction each; nothing but their statements changes the
database. -/
def semantics : Semantics Statement Reply Database where
  Choice := Choice
  exec := exec
  Tick := Empty
  tick := fun t => nomatch t

abbrev History := Hist Statement Reply Database

abbrev StatementEvent := Event Statement Reply

end Postgres

end BlinkLnurl
