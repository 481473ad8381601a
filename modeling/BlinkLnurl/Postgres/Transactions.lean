import BlinkLnurl.Postgres.Statements

/-!
# Transactions of the PostgreSQL repository

`upsert_spark_registration` and `transfer_identifier` of `postgresql/repository.rs` as
programs over their statements.
-/

namespace BlinkLnurl

open Conc

namespace Postgres

abbrev Transaction (α : Type) := Prog Statement Reply RepositoryError α

def now : Transaction Int := Prog.perform Statement.now

def generateAccountId : Transaction String := Prog.perform Statement.generateAccountId

def begin : Transaction Unit := .call .begin .ofExcept

def query (q : Query) : Transaction q.Answer := .call (.query q) .ofExcept

def change (c : Change) : Transaction c.Result := .call (.change c) .ofExcept

def scan (s : Scan) : Transaction (List Nat) := .call (.scan s) .ofExcept

def commit : Transaction Unit :=
  .call .commit fun committing =>
    match committing with
    | .heard _ => .ret ()
    | _ => .fail .general

/-- `pool.begin()`, and the statements up to `tx.commit()`. A transaction that is dropped
before is rolled back. -/
def transaction (body : Transaction Unit) : Transaction Unit := do
  begin
  match ← (body.attempt : Transaction (Except RepositoryError Unit)) with
  | .ok () => return ()
  | .error e => do
      Prog.perform Statement.rollback
      Prog.fail e

/-- `insert_statement_claim`, with the refusal its callers turn a conflict into. -/
def insertStatementClaim (claim : Option StatementClaim) : Transaction Unit :=
  match claim with
  | none => return ()
  | some claim => do
      let now ← now
      let inserted ← change (.insertStatementClaim claim now)
      Prog.require (inserted = true) .statementAlreadyUsed

def deleteRows (n : Name) : List Nat → Transaction Unit
  | [] => return ()
  | rowId :: rest => do
      change (.deleteOther n rowId)
      deleteRows n rest

/-- `DELETE FROM account_identifiers WHERE account_id = … AND domain = … AND
identifier_kind = 'username' AND identifier <> …`. -/
def deleteOtherUsernames (n : Name) : Transaction Unit := do
  let rows ← scan (.deleteOthers n)
  deleteRows n rows

/-- The number of rows updated. -/
def reassignRows (a : Reassignment) : List Nat → Transaction Nat
  | [] => return 0
  | rowId :: rest => do
      let updated ← change (.reassign a rowId)
      let more ← reassignRows a rest
      return (if updated then 1 else 0) + more

/-- `UPDATE account_identifiers SET account_id = …, description = …, updated_at = … WHERE
domain = … AND identifier = … AND account_id = …`. -/
def reassignIdentifier (a : Reassignment) : Transaction Nat := do
  let rows ← scan (.reassign a)
  reassignRows a rows

/-- The account a registration is for: the one it names, else the one of its pubkey,
else a new one. -/
def registrationAccountId (registration : NewSparkRegistration) : Transaction String :=
  match registration.accountId with
  | some accountId => return accountId
  | none => do
      match ← query (.sparkAccountIdByPubkey registration.pubkey) with
      | some accountId => return accountId
      | none => generateAccountId

def upsertSparkRegistration (registration : NewSparkRegistration) : Transaction Unit := do
  Prog.ofExcept registration.validate
  let now ← now
  transaction do
    insertStatementClaim registration.claim
    let accountId ← registrationAccountId registration
    let provider ← query (.providerOf accountId)
    Prog.require (∀ p, provider = some p → p = .spark) .invalidProvider
    let owner ← query
      (.identifierOwner registration.identifier.domain registration.identifier.identifier)
    Prog.require (∀ o, owner = some o → o = accountId) .identifierConflict
    let owner ← query (.sparkAccountIdByPubkey registration.pubkey)
    Prog.require (∀ o, owner = some o → o = accountId) .invalidOwnership
    deleteOtherUsernames
      ⟨accountId, registration.identifier.domain, registration.identifier.identifier⟩
    change (.upsertAccount accountId now)
    change (.upsertSparkAccount accountId registration.pubkey now)
    change (.upsertIdentifier accountId registration.identifier now)
    commit

/-- The account a transfer goes to, created for a pubkey seen for the first time. -/
def destinationAccountId (pubkey : String) (now : Int) : Transaction String := do
  match ← query (.destinationAccount pubkey) with
  | some (accountId, provider) => do
      Prog.require (provider = .spark) .invalidProvider
      return accountId
  | none => do
      let accountId ← generateAccountId
      change (.insertAccount accountId now)
      change (.insertSparkAccount accountId pubkey now)
      return accountId

def transferIdentifier (transfer : IdentifierTransfer) : Transaction Unit := do
  let now ← now
  transaction do
    insertStatementClaim transfer.claim
    let source ← query (.identifierOwner transfer.domain transfer.identifier)
    Prog.require (source = some transfer.sourceAccountId) .sourceNotOwner
    let pubkey ← query (.sourcePubkey transfer.sourceAccountId)
    Prog.require (pubkey.isSome = true) .invalidOwnership
    let destination ← destinationAccountId transfer.destinationSparkPubkey now
    let hasSparkChild ← query (.hasSparkChild destination)
    Prog.require (hasSparkChild = true) .invalidProvider
    let updated ← reassignIdentifier
      { domain := transfer.domain
        identifier := transfer.identifier
        sourceAccountId := transfer.sourceAccountId
        destinationAccountId := destination
        description := transfer.description
        now }
    Prog.require (updated = 1) .sourceNotOwner
    deleteOtherUsernames ⟨destination, transfer.domain, transfer.identifier⟩
    commit

inductive Request
  | register (registration : NewSparkRegistration)
  | transfer (transfer : IdentifierTransfer)

def handler : Request → Transaction Unit
  | .register registration => upsertSparkRegistration registration
  | .transfer transfer => transferIdentifier transfer

end Postgres

end BlinkLnurl
