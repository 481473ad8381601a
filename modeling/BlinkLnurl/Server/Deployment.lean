import BlinkLnurl.Lib.AsciiCase
import BlinkLnurl.Server.Server

/-!
# A deployment to run schedules on

A server whose third-party functions are tables: which messages were signed by
which key, which digests are known, which invoices and events parse. On the
entries of its tables a deployment answers as the crates do. Hexadecimal is
decoded in full; what no table names is not signed, not an invoice and not an
event. The digest of an unlisted text is a text of its own, so that a
deployment without collisions in its table has no collisions.
-/

namespace BlinkLnurl

open Conc RustStr

def hexDigit (c : Char) : Option Nat :=
  if '0' ≤ c ∧ c ≤ '9' then some (c.toNat - '0'.toNat)
  else if 'a' ≤ c ∧ c ≤ 'f' then some (c.toNat - 'a'.toNat + 10)
  else if 'A' ≤ c ∧ c ≤ 'F' then some (c.toNat - 'A'.toNat + 10)
  else none

def hexBytes : List Char → Except String Bytes
  | [] => .ok []
  | [_] => .error "Odd number of digits"
  | hi :: lo :: rest =>
      match hexDigit hi, hexDigit lo with
      | some h, some l => (hexBytes rest).map fun bytes => UInt8.ofNat (16 * h + l) :: bytes
      | _, _ => .error "Invalid character"

theorem isHexChar_of_hexDigit {c : Char} {n : Nat} (h : hexDigit c = some n) :
    isHexChar c = true := by
  unfold hexDigit at h
  unfold isHexChar isHexDigit isAsciiDigit
  split at h
  · rename_i hdigit
    simp [hdigit]
  · split at h
    · rename_i hlower
      simp [hlower]
    · split at h
      · rename_i hupper
        simp [hupper]
      · exact nomatch h

theorem isHexChar_of_hexBytes {cs : List Char} {bytes : Bytes} (h : hexBytes cs = .ok bytes) :
    ∀ c ∈ cs, isHexChar c = true := by
  induction cs using hexBytes.induct generalizing bytes with
  | case1 => exact fun c hc => absurd hc List.not_mem_nil
  | case2 => exact nomatch h
  | case3 hi lo rest n m hlo hhi ih =>
      rw [hexBytes, hhi, hlo] at h
      cases hrest : hexBytes rest with
      | error e =>
          rw [hrest] at h
          exact nomatch h
      | ok b =>
          intro c hc
          rcases List.mem_cons.mp hc with rfl | hc
          · exact isHexChar_of_hexDigit hhi
          · rcases List.mem_cons.mp hc with rfl | hc
            · exact isHexChar_of_hexDigit hlo
            · exact ih hrest c hc
  | case4 hi lo rest hno =>
      rw [hexBytes] at h
      split at h
      · rename_i n m hhi hlo
        exact absurd hlo (hno n m hhi)
      · exact nomatch h

/-- One character for each byte, none of them ASCII. -/
def byteText (b : Bytes) : String := String.ofList (b.map fun x => Char.ofNat (x.toNat + 256))

structure Deployment where
  /-- The keys, as they are printed. -/
  keys : List PublicKey := []
  /-- Who signed what. -/
  signed : List (PublicKey × String) := []
  digests : List (Bytes × String) := []
  invoices : List (String × Bolt11Invoice) := []
  events : List (String × NostrEvent) := []

namespace Deployment

def keyOf (d : Deployment) (bytes : Bytes) : Option PublicKey :=
  d.keys.find? fun k => match hexBytes k.hex.toList with
    | .ok b => b = bytes
    | .error _ => false

def sha256 (d : Deployment) (bytes : Bytes) : String :=
  (d.digests.lookup bytes).getD (byteText bytes)

/-- What no digest of the table holds is in no hash, if it is ASCII. -/
theorem not_mem_sha256 {d : Deployment} {c : Char} (hascii : c.toNat < 128)
    (hdigests : ∀ digest ∈ d.digests, c ∉ digest.2.toList) (bytes : Bytes) :
    c ∉ (d.sha256 bytes).toList := by
  unfold sha256
  cases hdigest : d.digests.lookup bytes with
  | some digest =>
      obtain ⟨front, back, hlist, _⟩ := List.lookup_eq_some_iff.mp hdigest
      exact hdigests (bytes, digest) (hlist ▸ List.mem_append_right _ List.mem_cons_self)
  | none =>
      intro hmem
      rw [Option.getD_none, byteText, String.toList_ofList] at hmem
      obtain ⟨x, _, hx⟩ := List.mem_map.mp hmem
      have hrange := congrArg Char.toNat hx
      have hbyte := x.toNat_lt
      rw [toNat_ofNat_valid (by omega) (by omega)] at hrange
      omega

/-- The tags of a receipt: NIP-57's, but for the `e` and `a` tags. -/
def receiptTags (bolt11 : String) (preimage : Option String) (request : NostrEvent) :
    List NostrTag :=
  [bolt11Tag bolt11, descriptionTag request.json] ++ preimage.toList.map preimageTag ++
    request.tags.filter isKeyTag ++ [senderTag request.pubkey]

def crates (d : Deployment) : Crates where
  caseProperties := ⟨fun c => isAsciiLowercase c || ('A' ≤ c && c ≤ 'Z'), fun _ => false⟩
  phoneNumbers := fun _ => none
  hexDecode := fun s => hexBytes s.toList
  sha256 := d.sha256
  hmacSha256 := fun _ _ => []
  publicKey := d.keyOf
  signature := fun bytes => some ⟨bytes⟩
  verifyMessage := fun message _ key => d.signed.any fun s => s.1 = key && s.2 = message
  bolt11 := fun s => match d.invoices.lookup s with
    | some invoice => .ok invoice
    | none => .error "Invalid bech32"
  nostrEvent := fun s => d.events.lookup s
  verifyEvent := fun _ => true
  zapReceiptTags := receiptTags
  jsonString := fun s => "\"" ++ s ++ "\""
  sspWebhookPayload := fun _ => none

/-- Both providers on, amounts from 1 to 1,000,000 satoshis, a Nostr key. -/
def state (d : Deployment) : State where
  crates := d.crates
  sparkEnabled := true
  blinkEnabled := true
  blinkStatusEnabled := true
  scheme := "https"
  callbackDomain := none
  minSendable := 1000
  maxSendable := 1000000000
  includeSparkAddress := false
  nostrKeys := some "server"
  webhookSecret := "secret"
  webhookDeliveryTtlDays := 90

end Deployment

/-- The key and the host of the examples. -/
def ownerKey : PublicKey :=
  ⟨"0279be667ef9dcbbac55a06295ce870b07029bfcdb2dce28d959f2815b16f81798",
    RustStr.forall_mem_of_all (by decide)⟩

def blinkHost : Host := ⟨"d.io", RustStr.forall_mem_of_all (by decide)⟩

/-- A library that knows one Swiss number. -/
def swissNumbers : PhoneNumbers := fun text =>
  if text = "+41791234567" then some ⟨true, true, "+41791234567", by decide⟩ else none

/-! ## Schedules -/

/-- How the environment answers in one entry of a schedule. -/
structure Answers where
  fails : Bool := false
  generatedId : String := "acct"
  invoice : Except ProviderError ProviderInvoice := .error .other
  status : Option BlinkPaymentStatus := none
  eventJson : String := ""
  webhookConfig : Option WebhookConfig := none

def Answers.env (a : Answers) : (op : EnvOp) → op.Choice
  | .nowU64 => ()
  | .nowMillis => ()
  | .allowedDomains => []
  | .ipRateLimit => true
  | .resolveCountry => none
  | .generateAccountId => a.generatedId
  | .createInvoice _ => a.invoice
  | .blinkPaymentStatus _ => a.status
  | .blinkUsdMinSendable => none
  | .signEvent kind tags => some { kind, pubkey := "server", tags, json := a.eventJson }
  | .sendEvent _ _ => true
  | .webhookConfig _ => a.webhookConfig
  | .acquirePermit _ => true
  | .sendWebhook _ _ _ => .ok ()

def Answers.choice (a : Answers) : (c : Call) → semantics.Choice c
  | .account _ => ⟨a.fails, a.generatedId⟩
  | .payment _ => ⟨a.fails, .stored⟩
  | .env op => a.env op

abbrev Schedule := List (Move Request semantics)

namespace Schedule

def serve (q : Request) : Schedule := [.accept q]

/-- `n` calls of thread `i`. -/
def calls (i n : Nat) (a : Answers := {}) : Schedule := List.replicate n (.call i a.choice)

def wait (millis : Nat) : Schedule := [.tick millis]

end Schedule

section Run

variable (d : Deployment) (ok : History → CallEvent → Prop) [∀ h ev, Decidable (ok h ev)]
  (millis : Nat) (h : millis < 2 ^ 63) (ms : Schedule)

/-- What a schedule leads to, from a fresh server at `millis`. -/
def Deployment.run : Option Server :=
  replay semantics ok (handler d.state) ms (.initial (World.fresh ⟨millis, h⟩))

theorem Deployment.reachable_of_run (p : Server → Bool)
    (hrun : (d.run ok millis h ms).any p = true) :
    ∃ cfg, Reachable semantics ok (handler d.state) (World.fresh ⟨millis, h⟩) cfg ∧
      (∀ i, cfg.request i = (accepted ms)[i]?) ∧ p cfg = true :=
  reachable_of_replay hrun

theorem Deployment.step_of_run (m : Move Request semantics) (p p' : Server → Bool)
    (hrun : (d.run ok millis h ms).any p = true)
    (hmore : (d.run ok millis h (ms ++ [m])).any p' = true) :
    ∃ cfg cfg', Reachable semantics ok (handler d.state) (World.fresh ⟨millis, h⟩) cfg ∧
      Step semantics ok (handler d.state) cfg cfg' ∧
      (∀ i, cfg'.request i = (accepted (ms ++ [m]))[i]?) ∧ p cfg = true ∧ p' cfg' = true :=
  step_of_replay hrun hmore

end Run

/-! ## An invoice to pay

A key owns `alice`, and an invoice of 10 satoshis for it is stored under the
payment hash `aa` of the preimage `00`. The SSP reports what it is asked to. -/

section Payee

open Schedule

def payeeSigned : Deployment :=
  { keys := [ownerKey]
    signed := [(ownerKey, "alice-1000"), (ownerKey, "00-1000")]
    digests := [([0], "aa"),
      (utf8 "[[\"text/plain\",\"Pay to alice@d.io\"],[\"text/identifier\",\"alice@d.io\"]]", "dd")]
    invoices := [("lnbc1", ⟨"aa", some "dd", some 10000, some 2000000⟩)] }

/-- The payment of the invoice, as the SSP reports it. -/
def payeeReport : SspWebhookPayload :=
  { eventType := "SPARK_LIGHTNING_RECEIVE_FINISHED"
    paymentPreimage := some "00"
    receiverIdentityPublicKey := some ownerKey.hex
    htlcAmount := some ⟨10, "SATOSHI"⟩ }

def payeeServer : State :=
  { payeeSigned.state with
    crates := { payeeSigned.crates with sspWebhookPayload := fun _ => some payeeReport } }

def registersPayee : Request :=
  .register blinkHost ownerKey.hex ⟨"alice", "3006020101020101", 1000, "Pay to alice@d.io"⟩

def asksInvoice : Request := .handleInvoice blinkHost "alice" ⟨some 10000, none, none, none⟩

def reportsPaid : Request := .webhook (some "") []

def clientReportsPaid : Request := .invoicePaid ownerKey.hex ⟨"3006020101020101", 1000, "00"⟩

def invoiceAnswer : Answers :=
  { generatedId := "acct_2", invoice := .ok ⟨"lnbc1", .btc, none, none⟩ }

/-- The invoice is stored. -/
def invoiced : Schedule :=
  serve registersPayee ++ calls 0 4 ++ serve asksInvoice ++ calls 1 7 invoiceAnswer

theorem startMillis_fits : 1000000 < 2 ^ 63 := by decide

/-- Where a schedule leads. -/
abbrev payeeRun (ok : History → CallEvent → Prop) [∀ h ev, Decidable (ok h ev)] (ms : Schedule) :
    Option Server :=
  replay semantics ok (handler payeeServer) ms (.initial (World.fresh ⟨1000000, startMillis_fits⟩))

/-! The payer leaves a comment, and the payee reports payments itself. -/

/-- The payee's server, for an invoice that expires at `millis`. -/
def expiringServer (millis : Nat) : State :=
  { payeeSigned with
    signed := [(ownerKey, "alice-1000"), (ownerKey, ownerKey.hex ++ "-1000")]
    invoices := [("lnbc1", ⟨"aa", some "dd", some 10000, some millis⟩)] }.state

def asksWithComment : Request :=
  .handleInvoice blinkHost "alice" ⟨some 10000, some "thanks", none, none⟩

def reportsBatch : Request :=
  .invoicesPaid ownerKey.hex ⟨"3006020101020101", 1000, [⟨"00", "lnbc1"⟩]⟩

/-- The comment is stored, and the callback is about to write the invoice row. -/
def rowPending : Schedule :=
  serve registersPayee ++ calls 0 4 ++ serve asksWithComment ++ calls 1 7 invoiceAnswer

end Payee

/-! ## A zap to publish

A payer zaps `alice` with the invoice of before, and the payee publishes the
receipt. The preimage of the invoice is in one of its receipts only. -/

section Zap

open Schedule

def zapRequestEvent : NostrEvent where
  kind := NostrEvent.zapRequestKind
  pubkey := "payer"
  tags := [⟨["p", "alice"], some (.publicKey "alice" false)⟩,
    ⟨["relays", "r"], some (.relays ["r"])⟩]
  json := "zap"

def clientReceipt (json : String) (preimage : Option String) : NostrEvent where
  kind := NostrEvent.zapReceiptKind
  pubkey := "client"
  tags := [bolt11Tag "lnbc1"] ++ preimage.toList.map preimageTag
  json

def zapSigned : Deployment :=
  { keys := [ownerKey]
    signed := [(ownerKey, "alice-1000"), (ownerKey, "receipt-1000"), (ownerKey, "unpaid-1000")]
    digests := [([0], "aa"), (utf8 "zap", "dd")]
    invoices := [("lnbc1", ⟨"aa", some "dd", some 10000, some 2000000⟩)]
    events := [("zap", zapRequestEvent), ("receipt", clientReceipt "receipt" (some "00")),
      ("unpaid", clientReceipt "unpaid" none)] }

def zapServer : State := zapSigned.state

def asksZap : Request := .handleInvoice blinkHost "alice" ⟨some 10000, none, some "zap", none⟩

/-- The payee sends one of its receipts. -/
def publishes (receipt : String) : Request :=
  .publishZapReceipt ownerKey.hex "aa" ⟨"3006020101020101", 1000, receipt⟩

/-- The zap and its invoice are stored. -/
def zapped : Schedule :=
  serve registersPayee ++ calls 0 4 ++ serve asksZap ++ calls 1 8 invoiceAnswer

/-- Where a schedule leads. -/
abbrev zapRun (ok : History → CallEvent → Prop) [∀ h ev, Decidable (ok h ev)] (ms : Schedule) :
    Option Server :=
  replay semantics ok (handler zapServer) ms (.initial (World.fresh ⟨1000000, startMillis_fits⟩))

end Zap

end BlinkLnurl
