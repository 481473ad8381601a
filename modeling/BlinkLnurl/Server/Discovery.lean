import BlinkLnurl.Lib.Answers
import BlinkLnurl.Server.Deployment
import BlinkLnurl.Server.Statements

/-!
# Discovery and callback

What `/.well-known/lnurlp` advertises and what the invoice callback does with
it. Both routes are taken under the same answers, which is what "in the same
state" comes to: the same recipient and the same Blink conversion.
-/

namespace BlinkLnurl

open Conc RustStr

variable {state : State} {answers : (c : Call) → Reply c}

/-! ## What discovery answers -/

/-- The recipient discovery finds, and its answer. -/
structure Discovers (state : State) (answers : (c : Call) → Reply c) (host : Host)
    (identifier : String) (recipient : PublicRecipient) (response : PayResponse) : Prop where
  found : ∃ missing, (publicRecipient state.crates (hostDomain state.crates host) identifier
    missing).eval answers = .ok recipient
  minSendable : (resolveMinSendableMsat state recipient).eval answers = .ok response.minSendable
  bounded : response.minSendable ≤ response.maxSendable
  maxSendable : response.maxSendable = state.maxSendable
  commentAllowed : response.commentAllowed = maxCommentLength
  callback : response.callback = buildCallbackUrl state (hostDomain state.crates host)
    recipient.callbackIdentifier
  metadata : response.metadata = getMetadataForRecipient state.crates recipient.recipient
    recipient.callbackIdentifier

theorem sanitizeDomain_ok {crates : Crates} {text domain : String}
    (h : (sanitizeDomain crates text).eval answers = .ok domain) :
    domain = lowercase crates (trim text) := by
  simp only [sanitizeDomain, Prog.bind_eq, Prog.pure_eq] at h
  obtain ⟨domains, _, h⟩ := Prog.eval_bind_ok.mp h
  obtain ⟨_, _, h⟩ := Prog.eval_bind_ok.mp h
  exact (Except.ok.inj h).symm

theorem handleLnurlPay_ok {host : Host} {identifier : String} {response : PayResponse}
    (h : (handleLnurlPay state host identifier).eval answers = .ok response) :
    ∃ recipient, Discovers state answers host identifier recipient response := by
  simp only [handleLnurlPay, Prog.bind_eq, Prog.pure_eq] at h
  obtain ⟨_, _, h⟩ := Prog.eval_bind_ok.mp h
  obtain ⟨domain, hdomain, h⟩ := Prog.eval_bind_ok.mp h
  obtain ⟨recipient, hrecipient, h⟩ := Prog.eval_bind_ok.mp h
  obtain ⟨minSendable, hmin, h⟩ := Prog.eval_bind_ok.mp h
  obtain ⟨_, hle, h⟩ := Prog.eval_bind_ok.mp h
  obtain rfl := sanitizeDomain_ok hdomain
  obtain rfl := Except.ok.inj h
  exact ⟨recipient, ⟨_, hrecipient⟩, hmin, Prog.eval_require_ok.mp hle, rfl, rfl, rfl, rfl⟩

/-! ## What the callback checks -/

/-- The amount and comment checks of the callback, without those in between. -/
def callbackChecks (state : State) (recipient : PublicRecipient) (params : LnurlPayCallbackParams) :
    Handler Nat := do
  let amountMsat ← .ofExcept (checkCallbackParams state params)
  let minSendable ← resolveMinSendableMsat state recipient
  Prog.require (minSendable ≤ amountMsat) (.lnurlError "amount out of range")
  return amountMsat

/-- The amount is a whole number of satoshis within the bounds. -/
def AmountWithin (minSendable maxSendable : Nat) (amount : Option Nat) : Prop :=
  ∃ amountMsat, amount = some amountMsat ∧ amountMsat % 1000 = 0 ∧ minSendable ≤ amountMsat ∧
    amountMsat ≤ maxSendable

/-- The trimmed comment has at most `allowed` characters. -/
def CommentWithin (allowed : Nat) (comment : Option String) : Prop :=
  ∀ c, comment = some c → (trim c).toList.length ≤ allowed

/-- The trimmed comment has at most `allowed` bytes. -/
def CommentBytesWithin (allowed : Nat) (comment : Option String) : Prop :=
  ∀ c, comment = some c → byteLen (trim c) ≤ allowed

/-- The resolved minimum is never below the configured one. -/
theorem minSendable_le {recipient : PublicRecipient} {minSendable : Nat}
    (h : (resolveMinSendableMsat state recipient).eval answers = .ok minSendable) :
    state.minSendable ≤ minSendable := by
  simp only [resolveMinSendableMsat, Prog.bind_eq, Prog.pure_eq] at h
  split at h
  · obtain ⟨answer, _, h⟩ := Prog.eval_bind_ok.mp h
    cases h
    exact Nat.le_max_right _ _
  · cases h
    exact Nat.le_refl _

theorem length_le_byteLen (s : String) : s.toList.length ≤ byteLen s := by
  unfold byteLen utf8
  induction s.toList with
  | nil => exact Nat.le_refl _
  | cons c cs ih =>
      have hc : 1 ≤ (String.utf8EncodeChar c).length := by
        rw [String.length_utf8EncodeChar]
        exact c.utf8Size_pos
      rw [List.flatMap_cons, List.length_append, List.length_cons]
      omega

theorem CommentBytesWithin.characters {allowed : Nat} {comment : Option String}
    (h : CommentBytesWithin allowed comment) : CommentWithin allowed comment :=
  fun c hc => (length_le_byteLen _).trans (h c hc)

theorem commentTooLong_iff {comment : Option String} :
    comment.any (fun c => byteLen (trim c) > maxCommentLength) = true ↔
      ¬ CommentBytesWithin maxCommentLength comment := by
  unfold CommentBytesWithin
  cases comment with
  | none => simp
  | some c =>
      rw [Option.any_some, decide_eq_true_eq]
      constructor
      · intro hlong h
        exact absurd (h c rfl) (Nat.not_le.mpr hlong)
      · intro h
        by_contra hshort
        refine h fun c' hc => ?_
        cases hc
        exact Nat.not_lt.mp hshort

theorem checkCallbackParams_ok {params : LnurlPayCallbackParams} {amountMsat : Nat} :
    checkCallbackParams state params = .ok amountMsat ↔
      params.amount = some amountMsat ∧ amountMsat % 1000 = 0 ∧ state.minSendable ≤ amountMsat ∧
        amountMsat ≤ state.maxSendable ∧ CommentBytesWithin maxCommentLength params.comment := by
  unfold checkCallbackParams
  cases params.amount with
  | none => simp
  | some amount =>
      simp only [Option.some.injEq]
      by_cases hwhole : amount % 1000 = 0
      · rw [if_neg (not_not_intro hwhole)]
        by_cases hmin : amount < state.minSendable
        · rw [if_pos hmin]
          exact ⟨fun h => (nomatch h), fun h => by omega⟩
        · rw [if_neg hmin]
          by_cases hmax : amount > state.maxSendable
          · rw [if_pos hmax]
            exact ⟨fun h => (nomatch h), fun h => by omega⟩
          · rw [if_neg hmax]
            by_cases hcomment : CommentBytesWithin maxCommentLength params.comment
            · rw [if_neg (mt commentTooLong_iff.mp (not_not_intro hcomment)), Except.ok.injEq]
              exact ⟨fun h => by subst h; exact ⟨rfl, hwhole, by omega, by omega, hcomment⟩,
                And.left⟩
            · rw [if_pos (commentTooLong_iff.mpr hcomment)]
              exact ⟨fun h => (nomatch h), fun h => absurd h.2.2.2.2 hcomment⟩
      · rw [if_pos hwhole]
        exact ⟨fun h => (nomatch h), fun h => absurd (h.1 ▸ h.2.1) hwhole⟩

/-- The callback's checks under the same answers as a discovery. -/
theorem callbackChecks_ok {host : Host} {identifier : String} {recipient : PublicRecipient}
    {response : PayResponse} (found : Discovers state answers host identifier recipient response)
    (params : LnurlPayCallbackParams) :
    (∃ amountMsat, (callbackChecks state recipient params).eval answers = .ok amountMsat) ↔
      AmountWithin response.minSendable response.maxSendable params.amount ∧
        CommentBytesWithin response.commentAllowed params.comment := by
  rw [found.commentAllowed]
  have hstatic : state.minSendable ≤ response.minSendable := minSendable_le found.minSendable
  simp only [callbackChecks, Prog.bind_eq, Prog.pure_eq]
  constructor
  · rintro ⟨amountMsat, h⟩
    obtain ⟨amount, hparams, h⟩ := Prog.eval_bind_ok.mp h
    obtain ⟨minSendable, hmin, h⟩ := Prog.eval_bind_ok.mp h
    obtain ⟨_, hle, _⟩ := Prog.eval_bind_ok.mp h
    cases hmin.symm.trans found.minSendable
    rw [Prog.eval_ofExcept] at hparams
    obtain ⟨hamount, hwhole, _, hmax, hcomment⟩ := checkCallbackParams_ok.mp hparams
    refine ⟨⟨amount, hamount, hwhole, Prog.eval_require_ok.mp hle, ?_⟩, hcomment⟩
    rw [found.maxSendable]
    exact hmax
  · rintro ⟨⟨amount, hamount, hwhole, hmin, hmax⟩, hcomment⟩
    rw [found.maxSendable] at hmax
    have hparams := checkCallbackParams_ok.mpr ⟨hamount, hwhole, hstatic.trans hmin, hmax, hcomment⟩
    refine ⟨amount, Prog.eval_bind_ok.mpr ⟨amount, ?_, ?_⟩⟩
    · rw [Prog.eval_ofExcept]
      exact hparams
    · refine Prog.eval_bind_ok.mpr ⟨response.minSendable, found.minSendable, ?_⟩
      exact Prog.eval_bind_ok.mpr ⟨(), Prog.eval_require_ok.mpr hmin, rfl⟩

/-- The other checks before the callback asks a provider for an invoice. -/
structure OtherChecks (state : State) (answers : (c : Call) → Reply c) (recipient : PublicRecipient)
    (params : LnurlPayCallbackParams) : Prop where
  receiving : (requireReceiving recipient).eval answers = .ok ()
  description : ∀ amountMsat, params.amount = some amountMsat →
    ∃ text, invoiceDescription state recipient params amountMsat = .ok text
  expiry : ∃ expiry, callbackExpiryForProvider recipient.recipient.provider recipient.wallet
    recipient.recipient.defaultWallet params.expiry = .ok expiry

/-- Not a request for an invoice. -/
def Call.AsksNoInvoice : Call → Prop
  | .env (.createInvoice _) => False
  | _ => True

theorem calls_publicRecipient_noInvoice {crates : Crates} {domain identifier : String}
    {missing : ApiError} :
    (publicRecipient crates domain identifier missing).Calls Call.AsksNoInvoice := by
  simp only [publicRecipient, resolvePublicRecipient, Prog.bind_eq, Prog.pure_eq]
  refine Prog.calls_bind Prog.calls_ofExcept fun _ => ?_
  refine Prog.calls_bind Prog.calls_ofExcept fun _ => Prog.calls_bind ?_ fun _ =>
    Prog.calls_ofExcept
  exact Prog.calls_bind (Prog.calls_mapError.mpr (calls_account trivial)) fun _ => Prog.calls_ret _

theorem calls_requireReceiving_noInvoice {recipient : PublicRecipient} :
    (requireReceiving recipient).Calls Call.AsksNoInvoice := by
  simp only [requireReceiving, Prog.bind_eq, Prog.pure_eq]
  cases recipient.recipient.sparkPubkey with
  | none => exact Prog.calls_ret _
  | some pubkey =>
      refine Prog.calls_bind (Prog.calls_mapError.mpr ?_) fun _ => Prog.calls_require
      exact calls_storedAccountMode trivial

theorem calls_resolveMinSendable_noInvoice {recipient : PublicRecipient} :
    (resolveMinSendableMsat state recipient).Calls Call.AsksNoInvoice := by
  simp only [resolveMinSendableMsat, Prog.bind_eq, Prog.pure_eq]
  split
  · exact Prog.calls_bind (calls_env trivial) fun _ => Prog.calls_ret _
  · exact Prog.calls_ret _

theorem calls_storeZapAndComment_noInvoice {paymentHash accountId userPubkey : String}
    {expiry updatedAt : Int} {params : LnurlPayCallbackParams} :
    (storeZapAndComment paymentHash accountId userPubkey expiry updatedAt params).Calls
      Call.AsksNoInvoice := by
  simp only [storeZapAndComment, Prog.bind_eq]
  refine Prog.calls_bind ?_ fun _ => ?_
  · unfold storeZap
    split
    · exact calls_payment trivial
    · exact Prog.calls_ret _
  · unfold storeComment
    split
    · split
      · exact Prog.calls_ret _
      · exact calls_payment trivial
    · exact Prog.calls_ret _

theorem noInvoice {α : Type} {p : Handler α} {request : CreateInvoiceRequest}
    (hp : p.Calls Call.AsksNoInvoice) : Call.env (.createInvoice request) ∉ p.asks answers :=
  fun hmem => hp.of_asks hmem

/-- How the recipient is found does not depend on what a miss is answered with. -/
theorem publicRecipient_missing {crates : Crates} {domain identifier : String}
    {missing missing' : ApiError} {recipient : PublicRecipient}
    (h : (publicRecipient crates domain identifier missing).eval answers = .ok recipient) :
    (publicRecipient crates domain identifier missing').eval answers = .ok recipient := by
  simp only [publicRecipient, Prog.bind_eq] at h ⊢
  obtain ⟨parsed, hparsed, h⟩ := Prog.eval_bind_ok.mp h
  obtain ⟨intent, hintent, h⟩ := Prog.eval_bind_ok.mp h
  obtain ⟨found, hfound, h⟩ := Prog.eval_bind_ok.mp h
  refine Prog.eval_bind_ok.mpr ⟨parsed, hparsed, Prog.eval_bind_ok.mpr ⟨intent, hintent, ?_⟩⟩
  refine Prog.eval_bind_ok.mpr ⟨found, hfound, ?_⟩
  cases found with
  | some r => exact h
  | none => cases h

/-- The callback asks a provider for an invoice if and only if all its checks
pass. -/
theorem asks_createInvoice_iff {domain identifier : String} {recipient : PublicRecipient}
    (hidentifier : identifier ≠ "")
    (hfound : (publicRecipient state.crates domain identifier (.notFound "")).eval answers =
      .ok recipient) (params : LnurlPayCallbackParams) :
    (∃ request, Call.env (.createInvoice request) ∈
        (handleInvoiceForResolvedDomain state domain identifier params).asks answers) ↔
      OtherChecks state answers recipient params ∧
        ∃ amountMsat, (callbackChecks state recipient params).eval answers = .ok amountMsat := by
  simp only [handleInvoiceForResolvedDomain, callbackChecks, Prog.bind_eq, Prog.pure_eq]
  constructor
  · rintro ⟨request, hasks⟩
    obtain ⟨_, _, hasks⟩ := (Prog.mem_asks_bind.mp hasks).resolve_left (by simp)
    obtain ⟨r, hr, hasks⟩ :=
      (Prog.mem_asks_bind.mp hasks).resolve_left (noInvoice calls_publicRecipient_noInvoice)
    cases hr.symm.trans hfound
    obtain ⟨_, hreceiving, hasks⟩ :=
      (Prog.mem_asks_bind.mp hasks).resolve_left (noInvoice calls_requireReceiving_noInvoice)
    obtain ⟨amountMsat, hparams, hasks⟩ := (Prog.mem_asks_bind.mp hasks).resolve_left (by simp)
    obtain ⟨text, htext, hasks⟩ := (Prog.mem_asks_bind.mp hasks).resolve_left (by simp)
    obtain ⟨expiry, hexpiry, hasks⟩ := (Prog.mem_asks_bind.mp hasks).resolve_left (by simp)
    obtain ⟨minSendable, hmin, hasks⟩ :=
      (Prog.mem_asks_bind.mp hasks).resolve_left (noInvoice calls_resolveMinSendable_noInvoice)
    obtain ⟨_, hle, _⟩ := (Prog.mem_asks_bind.mp hasks).resolve_left (by simp)
    rw [Prog.eval_ofExcept] at hparams htext hexpiry
    refine ⟨⟨hreceiving, ?_, expiry, hexpiry⟩, amountMsat, ?_⟩
    · intro amount hamount
      cases hamount.symm.trans (checkCallbackParams_ok.mp hparams).1
      exact ⟨text, htext⟩
    · refine Prog.eval_bind_ok.mpr ⟨amountMsat, by rw [Prog.eval_ofExcept]; exact hparams, ?_⟩
      refine Prog.eval_bind_ok.mpr ⟨minSendable, hmin, ?_⟩
      exact Prog.eval_bind_ok.mpr ⟨(), Prog.eval_require_ok.mpr (Prog.eval_require_ok.mp hle), rfl⟩
  · rintro ⟨others, amountMsat, h⟩
    obtain ⟨amount, hparams, h⟩ := Prog.eval_bind_ok.mp h
    obtain ⟨minSendable, hmin, h⟩ := Prog.eval_bind_ok.mp h
    obtain ⟨_, hle, _⟩ := Prog.eval_bind_ok.mp h
    rw [Prog.eval_ofExcept] at hparams
    obtain ⟨text, htext⟩ := others.description amount (checkCallbackParams_ok.mp hparams).1
    obtain ⟨expiry, hexpiry⟩ := others.expiry
    let request : CreateInvoiceRequest :=
      { recipient := recipient.recipient
        wallet := recipient.wallet
        amountSat := amount / 1000
        descriptionHash := state.crates.sha256 (utf8 text)
        expiry
        includeSparkAddress := state.includeSparkAddress }
    refine ⟨request, ?_⟩
    refine Prog.mem_asks_bind.mpr (Or.inr ⟨(), Prog.eval_require_ok.mpr hidentifier, ?_⟩)
    refine Prog.mem_asks_bind.mpr (Or.inr ⟨recipient, hfound, ?_⟩)
    refine Prog.mem_asks_bind.mpr (Or.inr ⟨(), others.receiving, ?_⟩)
    refine Prog.mem_asks_bind.mpr (Or.inr ⟨amount, by rw [Prog.eval_ofExcept]; exact hparams, ?_⟩)
    refine Prog.mem_asks_bind.mpr (Or.inr ⟨text, by rw [Prog.eval_ofExcept]; exact htext, ?_⟩)
    refine Prog.mem_asks_bind.mpr (Or.inr ⟨expiry, by rw [Prog.eval_ofExcept]; exact hexpiry, ?_⟩)
    refine Prog.mem_asks_bind.mpr (Or.inr ⟨minSendable, hmin, ?_⟩)
    refine Prog.mem_asks_bind.mpr (Or.inr ⟨(), hle, ?_⟩)
    exact Prog.mem_asks_bind.mpr (Or.inl List.mem_cons_self)

/-- The callback passes its amount and comment checks exactly when the request
keeps to what discovery advertised, unless the comment is short enough in
characters and too long in bytes. What else it checks before it asks a provider
are the `OtherChecks`. -/
theorem callback_honours_discovery_iff (state : State) (answers : (c : Call) → Reply c)
    {host : Host}
    {identifier : String} {response : PayResponse}
    (hdiscovery : (handleLnurlPay state host identifier).eval answers = .ok response)
    (params : LnurlPayCallbackParams) :
    ∃ recipient, Discovers state answers host identifier recipient response ∧
      (((∃ amountMsat, (callbackChecks state recipient params).eval answers = .ok amountMsat) ↔
          AmountWithin response.minSendable response.maxSendable params.amount ∧
            CommentWithin response.commentAllowed params.comment) ↔
        ¬ (AmountWithin response.minSendable response.maxSendable params.amount ∧
          CommentWithin response.commentAllowed params.comment ∧
          ¬ CommentBytesWithin response.commentAllowed params.comment)) ∧
      ((∃ request, Call.env (.createInvoice request) ∈ (handleInvoiceForResolvedDomain state
          (hostDomain state.crates host) identifier params).asks answers) ↔
        OtherChecks state answers recipient params ∧
          ∃ amountMsat, (callbackChecks state recipient params).eval answers = .ok amountMsat) := by
  obtain ⟨recipient, found⟩ := handleLnurlPay_ok hdiscovery
  have hidentifier : identifier ≠ "" := by
    simp only [handleLnurlPay, Prog.bind_eq] at hdiscovery
    obtain ⟨_, hne, _⟩ := Prog.eval_bind_ok.mp hdiscovery
    exact Prog.eval_require_ok.mp hne
  refine ⟨recipient, found, ?_, ?_⟩
  · rw [callbackChecks_ok found]
    constructor
    · rintro hiff ⟨hamount, hcomment, hbytes⟩
      exact hbytes (hiff.mpr ⟨hamount, hcomment⟩).2
    · intro hno
      constructor
      · rintro ⟨hamount, hbytes⟩
        exact ⟨hamount, hbytes.characters⟩
      · rintro ⟨hamount, hcomment⟩
        refine ⟨hamount, ?_⟩
        by_contra hbytes
        exact hno ⟨hamount, hcomment, hbytes⟩
  · obtain ⟨missing, hfound⟩ := found.found
    exact asks_createInvoice_iff hidentifier (publicRecipient_missing hfound) params

/-! ## The callback identifier

Discovery prints the identifier it has parsed into the callback URL; the
callback parses it again. -/

section Reparse

variable {cp : CaseProperties} {phones : PhoneNumbers} {crates : Crates}

theorem trim_trim (s : String) : trim (trim s) = trim s := by
  rw [trim, trim, String.toList_ofList, (trimmed_trimChars _).trimChars_eq_self]

theorem parsePublicIdentifier_callback {c : String} {kind : IdentifierKind}
    (canonical : Canonical cp phones c kind) (wallet : Option WalletModifier) :
    parsePublicIdentifier cp phones (callbackIdentifier ⟨c, kind, wallet⟩) = .ok ⟨c, kind, wallet⟩ ∧
      trim (callbackIdentifier ⟨c, kind, wallet⟩) = callbackIdentifier ⟨c, kind, wallet⟩ := by
  have reparse : ∀ text, trim text = text → text ≠ "" →
      splitFinalWalletModifier text = .ok (c, wallet) →
      parsePublicIdentifier cp phones text = .ok ⟨c, kind, wallet⟩ := by
    intro text htrim hne hsplit
    unfold parsePublicIdentifier
    simp only [htrim, hne, if_false, hsplit, bind, Except.bind, canonical.checked]
    rfl
  have suffixed : ∀ suffix : String, (∀ x ∈ suffix.toList, isWhitespace x = false) →
      trim (c ++ ("+" ++ suffix)) = c ++ ("+" ++ suffix) ∧ c ++ ("+" ++ suffix) ≠ "" := by
    intro suffix hsuffix
    constructor
    · refine trim_eq_self fun x hx => ?_
      rw [String.toList_append, String.toList_append] at hx
      rcases List.mem_append.mp hx with hx | hx
      · exact canonical.solid x hx
      · rcases List.mem_append.mp hx with hx | hx
        · rw [List.mem_singleton.mp hx]
          decide
        · exact hsuffix x hx
    · intro hempty
      have hlist := congrArg String.toList hempty
      rw [String.toList_append] at hlist
      exact canonical.ne (String.toList_inj.mp (List.append_eq_nil_iff.mp hlist).1)
  have hplain : ∀ suffix : String, (∀ x ∈ suffix.toList, isWhitespace x = false) →
      splitFinalWalletModifier (c ++ ("+" ++ suffix)) = .ok (c, wallet) →
      parsePublicIdentifier cp phones (c ++ ("+" ++ suffix)) = .ok ⟨c, kind, wallet⟩ ∧
        trim (c ++ ("+" ++ suffix)) = c ++ ("+" ++ suffix) := by
    intro suffix hsuffix hsplit
    obtain ⟨htrim, hne⟩ := suffixed suffix hsuffix
    exact ⟨reparse _ htrim hne hsplit, htrim⟩
  cases wallet with
  | none =>
      have htrim := trim_eq_self canonical.solid
      exact ⟨reparse c htrim canonical.ne (splitFinalWalletModifier_none canonical.noPlus), htrim⟩
  | some wallet =>
      cases wallet with
      | btc =>
          refine hplain "btc" (forall_mem_of_all (by decide)) ?_
          rw [splitFinalWalletModifier_some canonical.ne canonical.noPlus]
          rfl
      | usd =>
          refine hplain "usd" (forall_mem_of_all (by decide)) ?_
          rw [splitFinalWalletModifier_some canonical.ne canonical.noPlus]
          rfl

/-- A candidate of the legacy lookup has neither the shape of a phone number
nor a wallet suffix. -/
theorem isLegacySparkLookupCandidate_iff {identifier : String} :
    isLegacySparkLookupCandidate identifier = true ↔
      isPhoneLike identifier = false ∧ '+' ∉ identifier.toList.drop 1 := by
  rw [isLegacySparkLookupCandidate, Bool.and_eq_true, Bool.not_eq_true', Bool.not_eq_true']
  show isPhoneLike identifier = false ∧ _ ↔ _
  rw [List.any_eq_false]
  simp only [beq_iff_eq]
  exact and_congr_right fun _ => ⟨fun h hmem => h _ hmem rfl, fun h c hc hplus => h (hplus ▸ hc)⟩

/-- A name that only the legacy lookup admits. -/
structure LegacyName (cp : CaseProperties) (name : String) : Prop where
  trimmed : trim name = name
  ne : name ≠ ""
  candidate : isLegacySparkLookupCandidate name = true
  noUsername : isUsernameText (toLowercase cp name) = false

theorem LegacyName.noPlus {name : String} (legacy : LegacyName cp name) : '+' ∉ name.toList := by
  obtain ⟨hphone, hplus⟩ := isLegacySparkLookupCandidate_iff.mp legacy.candidate
  simp only [isPhoneLike, Bool.or_eq_false_iff] at hphone
  intro hmem
  obtain ⟨c, cs, hl⟩ := List.exists_cons_of_ne_nil (List.ne_nil_of_mem hmem)
  rw [hl] at hmem hplus
  rcases List.mem_cons.mp hmem with rfl | hmem
  · have hstart : startsWith "+" name = true := startsWith_iff.mpr (by rw [hl]; exact ⟨cs, rfl⟩)
    exact Bool.noConfusion (hphone.1.1.symm.trans hstart)
  · exact hplus hmem

theorem parsePublicIdentifier_legacy {name : String} (legacy : LegacyName cp name) :
    parsePublicIdentifier cp phones name = .error .invalidUsername := by
  obtain ⟨hphone, hplus⟩ := isLegacySparkLookupCandidate_iff.mp legacy.candidate
  unfold parsePublicIdentifier checkedToUsername matchesBlinkUsernameRegex
  simp only [legacy.trimmed, legacy.ne, if_false, splitFinalWalletModifier_none hplus, bind,
    Except.bind, hphone, legacy.noUsername]
  rfl

/-- Lowercasing keeps a legacy name one. -/
theorem LegacyName.lowercase {name : String} (legacy : LegacyName cp name) :
    LegacyName cp (toLowercase cp name) := by
  have hlist : (toLowercase cp name).toList = lowerChars cp [] name.toList := by
    rw [toLowercase, String.toList_ofList]
  have htrimmed : Trimmed name.toList := by
    rw [← legacy.trimmed, trim, String.toList_ofList]
    exact trimmed_trimChars _
  have hnil : name.toList ≠ [] := fun h => legacy.ne (String.toList_inj.mp h)
  obtain ⟨hphone, _⟩ := isLegacySparkLookupCandidate_iff.mp legacy.candidate
  simp only [isPhoneLike, Bool.or_eq_false_iff] at hphone
  obtain ⟨⟨_, h00⟩, hdigits⟩ := hphone
  have hnoPlus : '+' ∉ (toLowercase cp name).toList := by
    intro hmem
    rw [hlist] at hmem
    exact legacy.noPlus (mem_of_mem_lowerChars hmem (by decide))
  refine ⟨?_, ?_, ?_, ?_⟩
  · rw [trim, hlist, htrimmed.lowercase.trimChars_eq_self, ← hlist, String.ofList_toList]
  · intro hempty
    rw [hempty] at hlist
    exact lowerChars_ne_nil hnil hlist.symm
  · refine isLegacySparkLookupCandidate_iff.mpr ⟨?_, fun h => hnoPlus (List.mem_of_mem_drop h)⟩
    simp only [isPhoneLike, Bool.or_eq_false_iff]
    refine ⟨⟨?_, ?_⟩, ?_⟩
    · by_contra hstart
      rw [Bool.not_eq_false] at hstart
      exact hnoPlus ((startsWith_iff.mp hstart).subset List.mem_cons_self)
    · by_contra hzeros
      rw [Bool.not_eq_false, startsWith_iff, hlist] at hzeros
      have hname :=
        startsWith_iff.mpr (prefix_of_prefix_lowerChars (forall_mem_of_all (by decide)) hzeros)
      exact Bool.noConfusion (h00.symm.trans hname)
    · by_contra hall
      rw [Bool.not_eq_false, List.all_eq_true, hlist] at hall
      have hplain : ∀ d ∈ lowerChars cp [] name.toList, isPlain d.toNat = true :=
        fun d hd => isPlain_of_isAsciiDigit (hall d hd)
      have hname : name.toList.all isAsciiDigit = true :=
        List.all_eq_true.mpr fun c hc => hall c (mem_lowerChars_of_plain hplain c hc)
      exact Bool.noConfusion (hdigits.symm.trans hname)
  · rw [toLowercase_toLowercase]
    exact legacy.noUsername

theorem parsePublicIdentifier_trim (text : String) :
    parsePublicIdentifier cp phones (trim text) = parsePublicIdentifier cp phones text := by
  simp only [parsePublicIdentifier, trim_trim]

/-- What the callback reads out of the identifier discovery printed is what
discovery read. -/
theorem parsePublicIdentifierForPublicRoute_callback (e164 : E164 crates.phoneNumbers)
    {identifier : String} {intent : PublicIdentifierIntent}
    (h : parsePublicIdentifierForPublicRoute crates identifier = .ok (some intent)) :
    parsePublicIdentifierForPublicRoute crates intent.callbackIdentifier = .ok (some intent) := by
  unfold parsePublicIdentifierForPublicRoute at h
  simp only at h
  by_cases hempty : trim identifier = ""
  · rw [if_pos hempty] at h
    exact nomatch h
  rw [if_neg hempty] at h
  cases hparse : parsePublicIdentifier crates.caseProperties crates.phoneNumbers
    (trim identifier) with
  | ok parsed =>
      rw [hparse] at h
      obtain rfl := Option.some.inj (Except.ok.inj h)
      obtain ⟨hagain, htrim⟩ :=
        parsePublicIdentifier_callback (parsePublicIdentifier_canonical e164 hparse) parsed.wallet
      have hne : trim (callbackIdentifier parsed) ≠ "" := by
        intro hnil
        unfold parsePublicIdentifier at hagain
        simp only [hnil, if_true] at hagain
        exact nomatch hagain
      unfold parsePublicIdentifierForPublicRoute
      simp only [if_neg hne, parsePublicIdentifier_trim]
      rw [hagain]
  | error e =>
      rw [hparse] at h
      simp only at h
      by_cases hname : e = .invalidUsername ∧ isLegacySparkLookupCandidate (trim identifier) = true
      · rw [if_pos hname] at h
        obtain rfl := Option.some.inj (Except.ok.inj h)
        obtain ⟨rfl, hcandidate⟩ := hname
        have legacy : LegacyName crates.caseProperties (trim identifier) := by
          refine ⟨trim_trim _, hempty, hcandidate, ?_⟩
          obtain ⟨hphone, hplus⟩ := isLegacySparkLookupCandidate_iff.mp hcandidate
          by_contra htext
          rw [Bool.not_eq_false] at htext
          unfold parsePublicIdentifier checkedToUsername matchesBlinkUsernameRegex at hparse
          simp only [trim_trim, hempty, if_false, splitFinalWalletModifier_none hplus, bind,
            Except.bind, hphone, htext, if_true] at hparse
          exact nomatch hparse
        have lower := legacy.lowercase
        have hsame : sanitizeUsername crates (trim identifier) =
            toLowercase crates.caseProperties (trim identifier) := by
          rw [sanitizeUsername, trim_trim]
          rfl
        have hlast : sanitizeUsername crates (toLowercase crates.caseProperties (trim identifier)) =
            toLowercase crates.caseProperties (trim identifier) := by
          rw [sanitizeUsername, lower.trimmed]
          exact toLowercase_toLowercase _ _
        simp only [hsame]
        unfold parsePublicIdentifierForPublicRoute
        simp only [lower.trimmed, if_neg lower.ne, parsePublicIdentifier_legacy lower, true_and,
          if_pos lower.candidate, hlast]
      · rw [if_neg hname] at h
        split at h
        · exact nomatch Except.ok.inj h
        · exact nomatch h

end Reparse

/-- The recipient carries what was read out of the identifier. -/
theorem publicRecipient_ok {crates : Crates} {domain identifier : String} {missing : ApiError}
    {recipient : PublicRecipient}
    (h : (publicRecipient crates domain identifier missing).eval answers = .ok recipient) :
    ∃ intent, parsePublicIdentifierForPublicRoute crates identifier = .ok (some intent) ∧
      recipient.callbackIdentifier = intent.callbackIdentifier ∧
      ∀ other, parsePublicIdentifierForPublicRoute crates other = .ok (some intent) →
        (publicRecipient crates domain other missing).eval answers = .ok recipient := by
  simp only [publicRecipient, Prog.bind_eq] at h
  obtain ⟨parsed, hparsed, hrest⟩ := Prog.eval_bind_ok.mp h
  obtain ⟨intent, hintent, hresolve⟩ := Prog.eval_bind_ok.mp hrest
  obtain ⟨found, hfound, hlast⟩ := Prog.eval_bind_ok.mp hresolve
  rw [Prog.eval_ofExcept] at hparsed hintent hlast
  have hread : parsePublicIdentifierForPublicRoute crates identifier = .ok (some intent) := by
    cases hcase : parsePublicIdentifierForPublicRoute crates identifier with
    | error e =>
        rw [hcase] at hparsed
        exact nomatch hparsed
    | ok out =>
        rw [hcase] at hparsed
        obtain rfl := Except.ok.inj hparsed
        cases out with
        | none => exact nomatch hintent
        | some i => rw [Except.ok.inj hintent]
  refine ⟨intent, hread, ?_, ?_⟩
  · simp only [resolvePublicRecipient, Prog.bind_eq, Prog.pure_eq] at hfound
    obtain ⟨stored, _, hfound⟩ := Prog.eval_bind_ok.mp hfound
    obtain rfl := Except.ok.inj hfound
    cases stored with
    | none => exact nomatch hlast
    | some r =>
        obtain rfl := Except.ok.inj hlast
        rfl
  · intro other hother
    simp only [publicRecipient, Prog.bind_eq]
    refine Prog.eval_bind_ok.mpr ⟨some intent, ?_, Prog.eval_bind_ok.mpr ⟨intent, ?_, ?_⟩⟩
    · rw [Prog.eval_ofExcept, hother]
      rfl
    · rw [Prog.eval_ofExcept]
    · exact Prog.eval_bind_ok.mpr ⟨found, hfound, by rw [Prog.eval_ofExcept]; exact hlast⟩

/-- A callback without a zap request asks for an invoice over the metadata of
its recipient. -/
theorem asks_metadataHash {domain identifier : String} {recipient : PublicRecipient}
    {params : LnurlPayCallbackParams} {request : CreateInvoiceRequest}
    (hfound : (publicRecipient state.crates domain identifier (.notFound "")).eval answers =
      .ok recipient) (hnostr : params.nostr = none)
    (hasks : Call.env (.createInvoice request) ∈
      (handleInvoiceForResolvedDomain state domain identifier params).asks answers) :
    request.descriptionHash = state.crates.sha256 (utf8
      (getMetadataForRecipient state.crates recipient.recipient recipient.callbackIdentifier)) := by
  simp only [handleInvoiceForResolvedDomain, Prog.bind_eq, Prog.pure_eq] at hasks
  obtain ⟨_, _, hasks⟩ := (Prog.mem_asks_bind.mp hasks).resolve_left (by simp)
  obtain ⟨r, hr, hasks⟩ :=
    (Prog.mem_asks_bind.mp hasks).resolve_left (noInvoice calls_publicRecipient_noInvoice)
  obtain rfl := Except.ok.inj (hr.symm.trans hfound)
  obtain ⟨_, _, hasks⟩ :=
    (Prog.mem_asks_bind.mp hasks).resolve_left (noInvoice calls_requireReceiving_noInvoice)
  obtain ⟨_, _, hasks⟩ := (Prog.mem_asks_bind.mp hasks).resolve_left (by simp)
  obtain ⟨text, htext, hasks⟩ := (Prog.mem_asks_bind.mp hasks).resolve_left (by simp)
  obtain ⟨_, _, hasks⟩ := (Prog.mem_asks_bind.mp hasks).resolve_left (by simp)
  obtain ⟨_, _, hasks⟩ :=
    (Prog.mem_asks_bind.mp hasks).resolve_left (noInvoice calls_resolveMinSendable_noInvoice)
  obtain ⟨_, _, hasks⟩ := (Prog.mem_asks_bind.mp hasks).resolve_left (by simp)
  have hrequest := (Prog.mem_asks_bind.mp hasks).resolve_right (by
    rintro ⟨_, _, hafter⟩
    refine noInvoice ?_ hafter
    refine Prog.calls_bind Prog.calls_ofExcept fun _ =>
      Prog.calls_bind Prog.calls_ofExcept fun _ => ?_
    refine Prog.calls_bind (calls_env trivial) fun _ => ?_
    refine Prog.calls_bind (Prog.calls_mapError.mpr calls_storeZapAndComment_noInvoice) fun _ => ?_
    refine Prog.calls_bind (Prog.calls_mapError.mpr ?_) fun _ => Prog.calls_ret _
    exact Prog.calls_bind (calls_env trivial) fun _ => calls_payment trivial)
  rw [Prog.eval_ofExcept, invoiceDescription, hnostr] at htext
  obtain rfl := Except.ok.inj htext
  obtain rfl := EnvOp.createInvoice.inj (Call.env.inj (List.mem_singleton.mp hrequest))
  rfl

/-- The identifier in the callback URL is read as discovery read its own, and a
callback under it, without a zap request, asks for an invoice over the metadata
discovery printed. -/
theorem callback_commits_to_discovery (state : State) (e164 : E164 state.crates.phoneNumbers)
    (answers : (c : Call) → Reply c) {host : Host} {identifier : String} {response : PayResponse}
    (hdiscovery : (handleLnurlPay state host identifier).eval answers = .ok response) :
    ∃ intent,
      parsePublicIdentifierForPublicRoute state.crates identifier = .ok (some intent) ∧
      response.callback =
        buildCallbackUrl state (hostDomain state.crates host) intent.callbackIdentifier ∧
      parsePublicIdentifierForPublicRoute state.crates intent.callbackIdentifier =
        .ok (some intent) ∧
      ∀ params request, params.nostr = none →
        Call.env (.createInvoice request) ∈ (handleInvoiceForResolvedDomain state
          (hostDomain state.crates host) intent.callbackIdentifier params).asks answers →
        request.descriptionHash = state.crates.sha256 (utf8 response.metadata) := by
  obtain ⟨recipient, found⟩ := handleLnurlPay_ok hdiscovery
  obtain ⟨missing, hfound⟩ := found.found
  obtain ⟨intent, hread, hcallback, hsame⟩ := publicRecipient_ok hfound
  have hagain := parsePublicIdentifierForPublicRoute_callback e164 hread
  refine ⟨intent, hread, ?_, hagain, ?_⟩
  · rw [found.callback, hcallback]
  · intro params request hnostr hasks
    rw [found.metadata]
    exact asks_metadataHash (publicRecipient_missing (hsame _ hagain)) hnostr hasks

/-! ## Examples

A Blink account found under its phone number, and a comment of 130 two-byte characters. -/

section Example

def aliceRecipient : ResolvedRecipient :=
  { accountId := "acct"
    identifier := "alice"
    identifierKind := .username
    domain := "d.io"
    description := "Pay to alice"
    provider := .spark
    sparkPubkey := some ownerKey.hex
    blinkAccountId := none
    btcWalletId := none
    usdWalletId := none
    defaultWallet := none }

/-- The answers while `alice` is registered and nothing else is. -/
def aliceAnswers : (c : Call) → Reply c
  | .account (.resolveRecipientByIdentifier _ identifier) =>
      .ok (if identifier = "alice" then some aliceRecipient else none)
  | .account (.getSparkAccountMode _) => .ok none
  | .account _ => .error .general
  | .payment _ => .error .general
  | .env .nowU64 => (0 : Nat)
  | .env .nowMillis => (0 : Int)
  | .env .allowedDomains => ([] : List String)
  | .env .ipRateLimit => true
  | .env .resolveCountry => (none : Option String)
  | .env .generateAccountId => "acct_2"
  | .env (.createInvoice _) => (.error .other : Except ProviderError ProviderInvoice)
  | .env (.blinkPaymentStatus _) => (none : Option BlinkPaymentStatus)
  | .env .blinkUsdMinSendable => (none : Option Nat)
  | .env (.signEvent _ _) => (none : Option NostrEvent)
  | .env (.sendEvent _ _) => true
  | .env (.webhookConfig _) => (none : Option WebhookConfig)
  | .env (.acquirePermit _) => true
  | .env (.sendWebhook _ _ _) => (.ok () : Except WebhookError Unit)

def aliceServer : State := Deployment.state {}

def alicePays : PayResponse :=
  { callback := "https://d.io/lnurlp/alice/invoice"
    maxSendable := 1000000000
    minSendable := 1000
    metadata := "[[\"text/plain\",\"Pay to alice\"],[\"text/identifier\",\"alice@d.io\"]]"
    commentAllowed := 255
    nostrPubkey := some "server" }

theorem alice_discovered :
    (handleLnurlPay aliceServer blinkHost "alice").eval aliceAnswers = .ok alicePays := by
  decide +kernel

/-! A Swiss number, with and without its international prefix. -/

theorem swissNumbers_e164 : E164 swissNumbers where
  digits text phone h := by
    unfold swissNumbers at h
    split at h
    · obtain rfl := Option.some.inj h
      exact forall_mem_of_all (by decide)
    · exact nomatch h
  parses text phone h _ _ := by
    unfold swissNumbers at h
    split at h
    · obtain rfl := Option.some.inj h
      exact ⟨⟨true, true, "+41791234567", by decide⟩, if_pos rfl, rfl, rfl, rfl⟩
    · exact nomatch h

def swissServer : State :=
  { aliceServer with crates := { aliceServer.crates with phoneNumbers := swissNumbers } }

def swissRecipient : ResolvedRecipient :=
  { accountId := "acct"
    identifier := "+41791234567"
    identifierKind := .phone
    domain := "d.io"
    description := "Pay to +41791234567"
    provider := .blink
    sparkPubkey := none
    blinkAccountId := some "blink"
    btcWalletId := some "btc"
    usdWalletId := some "usd"
    defaultWallet := some .btc }

/-- The answers while only the number is registered. -/
def swissAnswers : (c : Call) → Reply c
  | .account (.resolveRecipientByIdentifier _ identifier) =>
      .ok (if identifier = "+41791234567" then some swissRecipient else none)
  | c => aliceAnswers c

def swissPays : PayResponse :=
  { callback := "https://d.io/lnurlp/+41791234567+usd/invoice"
    maxSendable := 1000000000
    minSendable := 50000
    metadata := "[[\"text/plain\",\"Pay to +41791234567\"]," ++
      "[\"text/identifier\",\"+41791234567+usd@d.io\"]]"
    commentAllowed := 255
    nostrPubkey := some "server" }

theorem swiss_discovered :
    (handleLnurlPay swissServer blinkHost " 0041791234567+USD").eval swissAnswers =
    .ok swissPays := by
  decide +kernel

/-- The number is asked for with its international prefix. -/
theorem callback_commits_to_discovery_swiss :
    ∃ request, Call.env (.createInvoice request) ∈ (handleInvoiceForResolvedDomain swissServer
        "d.io" "+41791234567+usd" ⟨some 50000, none, none, none⟩).asks swissAnswers ∧
      request.descriptionHash = swissServer.crates.sha256 (utf8 swissPays.metadata) := by
  obtain ⟨intent, hread, _, _, hhash⟩ :=
    callback_commits_to_discovery swissServer swissNumbers_e164 swissAnswers swiss_discovered
  have hintent : parsePublicIdentifierForPublicRoute swissServer.crates " 0041791234567+USD" =
      .ok (some ⟨"+41791234567", some .usd, "+41791234567+usd"⟩) := by decide +kernel
  obtain rfl := Option.some.inj (Except.ok.inj (hread.symm.trans hintent))
  have hdomain : hostDomain swissServer.crates blinkHost = "d.io" := by decide +kernel
  rw [hdomain] at hhash
  have hasked : ((handleInvoiceForResolvedDomain swissServer "d.io" "+41791234567+usd"
      ⟨some 50000, none, none, none⟩).asks swissAnswers).any (fun c => match c with
        | .env (.createInvoice _) => true
        | _ => false) = true := by decide +kernel
  obtain ⟨c, hc, hkind⟩ := List.any_eq_true.mp hasked
  split at hkind
  · rename_i request
    exact ⟨request, hc, hhash _ request rfl hc⟩
  · exact Bool.noConfusion hkind

def accents : String := String.ofList (List.replicate 130 'é')

/-- Ten satoshis and a comment of 130 characters. -/
def accented : LnurlPayCallbackParams :=
  { amount := some 10000, comment := some accents, nostr := none, expiry := none }

/-- Ten satoshis and a plain comment pass. -/
theorem callback_honours_discovery_iff_alice :
    ∃ recipient : PublicRecipient,
      Discovers aliceServer aliceAnswers blinkHost "alice" recipient alicePays ∧
      ∃ amountMsat,
      (callbackChecks aliceServer recipient { accented with comment := some "thanks" }).eval
        aliceAnswers = .ok amountMsat := by
  obtain ⟨recipient, found, hiff, _⟩ := callback_honours_discovery_iff aliceServer aliceAnswers
    alice_discovered { accented with comment := some "thanks" }
  have hbytes : CommentBytesWithin alicePays.commentAllowed (some "thanks") := by
    intro c hc
    obtain rfl := Option.some.inj hc
    have hlength : byteLen (trim "thanks") ≤ 255 := by decide +kernel
    exact hlength
  refine ⟨recipient, found, (hiff.mpr fun h => h.2.2 hbytes).mpr ⟨?_, hbytes.characters⟩⟩
  exact ⟨10000, rfl, by decide, by decide, by decide⟩

theorem accents_toList : accents.toList = List.replicate 130 'é' := String.toList_ofList

theorem trim_accents : trim accents = accents := by
  refine trim_eq_self fun c hc => ?_
  rw [accents_toList] at hc
  rw [List.eq_of_mem_replicate hc]
  decide

theorem byteLen_accents : byteLen accents = 260 := by
  rw [byteLen, utf8, accents_toList]
  decide +kernel

theorem checkCallbackParams_accented :
    checkCallbackParams aliceServer accented = .error (.lnurlError "comment too long") := by
  have hlong : accented.comment.any (fun c => byteLen (trim c) > maxCommentLength) = true := by
    rw [commentTooLong_iff]
    intro hwithin
    have hle := hwithin accents rfl
    rw [trim_accents, byteLen_accents] at hle
    exact absurd hle (by decide)
  have hmin : ¬ 10000 < aliceServer.minSendable := by decide
  have hmax : ¬ 10000 > aliceServer.maxSendable := by decide
  have hwhole : ¬ 10000 % 1000 ≠ 0 := by decide
  unfold checkCallbackParams
  rw [show accented.amount = some 10000 from rfl]
  simp only [if_neg hwhole, if_neg hmin, if_neg hmax, hlong, if_true]

/-- The comment has 130 characters, and the callback refuses it. -/
theorem accented_comment_refused :
    (handleLnurlPay aliceServer blinkHost "alice").eval aliceAnswers = .ok alicePays ∧
      AmountWithin alicePays.minSendable alicePays.maxSendable accented.amount ∧
      CommentWithin alicePays.commentAllowed accented.comment ∧
      (handleInvoice aliceServer blinkHost "alice" accented).eval aliceAnswers =
        .error (.lnurlError "comment too long") := by
  refine ⟨alice_discovered, ⟨10000, rfl, by decide, by decide, by decide⟩, ?_, ?_⟩
  · intro c hc
    obtain rfl := Option.some.inj hc
    rw [trim_accents, accents_toList, List.length_replicate]
    decide
  · have hdomain : (sanitizeDomain aliceServer.crates blinkHost.text).eval aliceAnswers =
        .ok "d.io" := by decide +kernel
    have hrecipient : (publicRecipient aliceServer.crates "d.io" "alice" (.notFound "")).eval
        aliceAnswers = .ok ⟨aliceRecipient, none, "alice"⟩ := by decide +kernel
    have hreceiving : (requireReceiving ⟨aliceRecipient, none, "alice"⟩).eval aliceAnswers =
        .ok () := by decide +kernel
    have hname : ((Prog.require ("alice" ≠ "") (.notFound "") : Handler Unit)).eval aliceAnswers =
        .ok () := Prog.eval_require_ok.mpr (by decide)
    simp only [handleInvoice, handleInvoiceForResolvedDomain, Prog.bind_eq, Prog.eval_bind, hname,
      hdomain, hrecipient, hreceiving, Prog.eval_ofExcept, checkCallbackParams_accented,
      Except.bind]

end Example

end BlinkLnurl
