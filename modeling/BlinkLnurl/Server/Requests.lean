import BlinkLnurl.Server.Calls
import BlinkLnurl.Server.SignedMessage

/-!
# What all routes share

The checks at the head of the routes (`routes/account.rs`, `routes/signed.rs`):
the resolved domain, the signed request, its timestamp and its signature, and
the errors a repository failure is answered with.
-/

namespace BlinkLnurl

open Conc RustStr

def lowercase (crates : Crates) (value : String) : String :=
  toLowercase crates.caseProperties value

/-! ## Errors -/

def enhancedModeRequired : ApiError := .conflict "enhanced_mode_required"

def statementAlreadyUsed : ApiError := .conflict "signature has already been used"

def storageError (_ : RepositoryError) : ApiError := .internalServerError

def sparkModeError : RepositoryError → ApiError
  | .staleModeTimestamp => .conflict "mode_request_not_newer"
  | .accountNotFound => .notFound "user not found"
  | e => storageError e

def sparkTransferError : RepositoryError → ApiError
  | .sourceNotOwner => .notFound "source pubkey does not own this username"
  | .nameTaken => .conflict "name already taken"
  | .identifierConflict => .conflict "name already taken"
  | .staleModeTimestamp => .conflict "mode_request_not_newer"
  | .statementAlreadyUsed => statementAlreadyUsed
  | _ => .internalServerError

def sparkUnregisterError : RepositoryError → ApiError
  | .sourceNotOwner => .notFound ""
  | .statementAlreadyUsed => statementAlreadyUsed
  | e => storageError e

def sparkRegistrationError : RepositoryError → ApiError
  | .nameTaken => .conflict "name already taken"
  | .identifierConflict => .conflict "name already taken"
  | .statementAlreadyUsed => statementAlreadyUsed
  | e => storageError e

/-! ## Checks -/

def requireSparkProviderEnabled (state : State) : Except ApiError Unit :=
  if state.sparkEnabled then .ok () else .error ⟨503, .text "Spark provider disabled"⟩

def canonicalSparkUsernameForRoute (crates : Crates) (username : String) : Except ApiError String :=
  match canonicalSparkUsername crates.caseProperties username with
  | .ok username => .ok username
  | .error _ => .error (.badRequest "invalid username")

def validateDescription (description : String) : Except ApiError Unit :=
  if description.toList.length > 255 then .error (.badRequest "description too long") else .ok ()

/-- An empty list of allowed domains allows all of them. -/
def sanitizeDomain (crates : Crates) (domain : String) : Handler String := do
  let domain := lowercase crates (trim domain)
  let domains ← env .allowedDomains
  Prog.require (domains = [] ∨ domain ∈ domains) (.notFound "")
  return domain

def parsePubkey (crates : Crates) (pubkey : String) : Except ApiError PublicKey :=
  match crates.hexDecode pubkey with
  | .error _ => .error (.badRequest "invalid pubkey")
  | .ok bytes =>
      match crates.publicKey bytes with
      | none => .error (.badRequest "invalid pubkey")
      | some pubkey => .ok pubkey

def parseSignature (crates : Crates) (signature : String) : Except ApiError Signature :=
  match crates.hexDecode signature with
  | .error _ => .error (.badRequest "invalid signature")
  | .ok bytes =>
      match crates.signature bytes with
      | none => .error (.badRequest "invalid signature")
      | some signature => .ok signature

def parseSignedRequest (crates : Crates) (pubkey signature : String) :
    Except ApiError (PublicKey × Signature) :=
  match parsePubkey crates pubkey with
  | .error e => .error e
  | .ok pubkey => (parseSignature crates signature).map fun signature => (pubkey, signature)

def checkTimestamp (timestamp : UInt64) : Handler Unit := do
  let now ← env .nowU64
  Prog.require (acceptsTimestamp now timestamp = true) (.badRequest "invalid timestamp")

/-- The first candidate that verifies; a miss names the domain back. -/
def verifyCandidates (crates : Crates) (pubkey : PublicKey) (signature : Signature)
    (candidates : List Candidate) (domain : Option String) : Except ApiError Candidate :=
  match firstVerified crates pubkey signature candidates with
  | some candidate => .ok candidate
  | none =>
      match domain with
      | some domain => .error (.badRequest ("invalid signature for domain '" ++ domain ++ "'"))
      | none => .error (.badRequest "invalid signature")

/-- A legacy-only signature over `message-timestamp`. -/
def validate (crates : Crates) (pubkey signature message : String) (timestamp : UInt64)
    (route : SignedRoute) : Handler PublicKey := do
  let (pubkey, signature) ← .ofExcept (parseSignedRequest crates pubkey signature)
  checkTimestamp timestamp
  let candidates := [Candidate.legacy (SignedMessage.legacyTimestamped message timestamp) route]
  let _ ← .ofExcept (verifyCandidates crates pubkey signature candidates none)
  return pubkey

def storedAccountMode (pubkey : String) : Handler (Option AccountMode) := do
  let record ← (Store.account (.getSparkAccountMode pubkey)).mapError storageError
  return record.bind SparkAccountMode.mode

/-! ## What the checks establish -/

section

variable {crates : Crates} {pubkey : PublicKey} {signature : Signature}
  {candidates : List Candidate}
  {domain : Option String} {candidate : Candidate}

theorem verifyCandidates_ok
    (h : verifyCandidates crates pubkey signature candidates domain = .ok candidate) :
    firstVerified crates pubkey signature candidates = some candidate := by
  unfold verifyCandidates at h
  cases hf : firstVerified crates pubkey signature candidates with
  | some c =>
      rw [hf] at h
      cases h
      rfl
  | none =>
      rw [hf] at h
      cases domain <;> cases h

/-- A route that goes on has its domain from the host alone. -/
theorem returns_sanitizeDomain {text : String} :
    (sanitizeDomain crates text).Returns fun d => d = lowercase crates (trim text) := by
  simp only [sanitizeDomain, env, Prog.bind_eq, Prog.pure_eq]
  refine Prog.returns_bind (Prog.returns_true _) fun domains _ => ?_
  exact Prog.returns_bind (Prog.returns_true _) fun _ _ => Prog.returns_ret.mpr rfl

theorem canonicalSparkUsernameForRoute_ok {username canonical : String}
    (h : canonicalSparkUsernameForRoute crates username = .ok canonical) :
    checkedToUsername crates.caseProperties username = .ok canonical := by
  unfold canonicalSparkUsernameForRoute canonicalSparkUsername at h
  cases hc : checkedToUsername crates.caseProperties username with
  | error e =>
      rw [hc] at h
      cases h
  | ok u =>
      rw [hc] at h
      cases h
      rfl

end

end BlinkLnurl
