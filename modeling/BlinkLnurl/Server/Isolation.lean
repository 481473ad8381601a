import BlinkLnurl.Server.Owners

/-!
# Metadata isolation

The routes within the contract on owners, and what follows for the metadata
listing: in runs where no batch inserts a row for the payment of another pubkey,
two states with the same rows of a pubkey answer its listing alike
(`metadata_isolated`). A batch that does so is accepted, and shows its sender
the comment of the other (`comment_listed_for_another`).
-/

namespace BlinkLnurl

open Conc Rel PaymentStore

section Contract

variable {crates : Crates} {i : Nat} {q : Request} {h : History} {k u : String} {ε α β : Type}

/-- What is shown of a route: it keeps to the contract. -/
abbrev KeepsOwnerContract (crates : Crates) (i : Nat) (q : Request) {ε α : Type}
    (p : Prog Call Reply ε α) (h : History) : Prop :=
  (ownerContract crates).wp semantics (KeepsOwners crates) i q p (fun _ _ => True) h

/-! ## Carrying facts -/

/-- A call that writes rows for nobody. -/
def Call.WritesNobody (c : Call) : Prop :=
  ∀ op, c = .payment op → ∀ s k u, ¬ op.WritesFor s k u

theorem writesNobody_of_sparesRows (c : Call) (h : ¬ c.WritesRows) : c.WritesNobody := by
  intro op hop s k u hwrites
  subst hop
  refine h fun hspares => ?_
  cases op <;> first | exact hwrites.elim | exact hspares

theorem writesNobody_of_notice (c : Call) (h : c.IsNotice) : c.WritesNobody :=
  writesNobody_of_sparesRows c (sparesRows_of_notice c h)

theorem writesNobody_env (op : EnvOp) : Call.WritesNobody (.env op) := fun _ h => nomatch h

theorem guard_of_writesNobody {c : Call} (hc : c.WritesNobody) :
    (ownerContract crates).guard i q h c := fun op hop =>
  ⟨fun k u hwrites => (hc op hop _ k u hwrites).elim,
    fun _ k u _ hwrites => (hc op hop _ k u hwrites).elim⟩

/-- Thread `i` has drawn the payment hash, and all its rows are for `u`. -/
structure Holds (crates : Crates) (i : Nat) (k u : String) (h : History) : Prop where
  drew : Drew crates i k h.log
  rows : ∀ v, h.state.payments.RowOf k v → v = u

theorem carries_row : (ownerContract crates).Carries semantics (KeepsOwners crates) i q
    Call.WritesNobody fun h => h.state.payments.RowOf k u where
  rely := fun hrely hrow => hrely.rows k u hrow
  guard := fun _ hc => guard_of_writesNobody hc
  call := @fun h c _ _ _ _ hc hexec hok hrow =>
    rowOf_step (guard_of_writesNobody hc : (ownerContract crates).guard i q h c) hok.2 hexec hrow

theorem carries_holds : (ownerContract crates).Carries semantics (KeepsOwners crates) i q
    Call.WritesNobody (Holds crates i k u) where
  rely := fun hrely holds =>
    ⟨holds.drew.mono hrely.log, hrely.reserved k u holds.drew holds.rows⟩
  guard := fun _ hc => guard_of_writesNobody hc
  call := fun _ hc hexec _ holds => by
    refine ⟨holds.drew.mono (List.prefix_append _ _), fun v hnew => ?_⟩
    rcases (exec_owners (i := i) hexec).new k v hnew with hold | hwrote
    · exact holds.rows v hold
    · obtain ⟨op, hop, hwrites⟩ := hwrote.op
      exact (hc op hop _ k v hwrites).elim

theorem carries_no_row : (ownerContract crates).Carries semantics (KeepsOwners crates) i q
    Call.WritesNobody fun _ => True where
  rely := fun _ _ => trivial
  guard := fun _ hc => guard_of_writesNobody hc
  call := fun _ _ _ _ _ => trivial

/-! ## Writes -/

variable {op : PaymentOp}

/-- A row written for the owner of a known payment. -/
theorem write_row (hwrites : ∀ s k' u', op.WritesFor s k' u' → k' = k ∧ u' = u)
    (hrow : h.state.payments.RowOf k u) : KeepsOwnerContract crates i q (Store.payment op) h := by
  refine Contract.wp_call.mpr fun h₁ hrely inv =>
    ⟨?_, fun _ _ _ _ _ _ => Contract.wp_ofExcept.mpr trivial⟩
  intro op' hop
  obtain rfl := Call.payment.inj hop
  have hrow₁ : h₁.state.payments.RowOf k u := hrely.rows k u hrow
  refine ⟨fun k' u' hw => ?_, fun _ k' u' v hw hv => ?_⟩
  · obtain ⟨rfl, rfl⟩ := hwrites _ k' u' hw
    exact Or.inr ⟨_, hrow₁⟩
  · obtain ⟨rfl, rfl⟩ := hwrites _ k' u' hw
    exact inv.agree _ _ _ hv hrow₁

/-- A row written by the thread that has drawn the payment hash. -/
theorem write_holds (hwrites : ∀ s k' u', op.WritesFor s k' u' → k' = k ∧ u' = u)
    (holds : Holds crates i k u h) :
    (ownerContract crates).wp semantics (KeepsOwners crates) i q (Store.payment op)
      (fun h _ => Holds crates i k u h) h := by
  refine Contract.wp_call.mpr fun h₁ hrely _ => ⟨?_, ?_⟩
  · intro op' hop
    obtain rfl := Call.payment.inj hop
    have holds₁ : Holds crates i k u h₁ := carries_holds.rely (q := q) hrely holds
    refine ⟨fun k' u' hw => ?_, fun _ k' u' v hw hv => ?_⟩
    · obtain ⟨rfl, _⟩ := hwrites _ k' u' hw
      exact Or.inl holds₁.drew
    · obtain ⟨rfl, rfl⟩ := hwrites _ k' u' hw
      exact holds₁.rows v hv
  · intro ch r s' hexec _ _
    have holds₁ : Holds crates i k u h₁ := carries_holds.rely (q := q) hrely holds
    refine Contract.wp_ofExcept.mpr
      ⟨holds₁.drew.mono (List.prefix_append _ _), fun v hnew => ?_⟩
    have change : OwnerChange h₁.state.payments s'.payments
        (WroteFor h₁.state.payments ⟨i, .payment op, r⟩) := exec_owners hexec
    rcases change.new k v hnew with hold | hwrote
    · exact holds₁.rows v hold
    · obtain ⟨op', hop, hw⟩ := hwrote.op
      obtain rfl := Call.payment.inj hop
      exact (hwrites _ k v hw).2

end Contract

/-! ## The pieces that write rows -/

section Pieces

variable {state : State} {i : Nat} {q : Request} {h : History} {k u : String} {ε α β : Type}

theorem keepsOwners_of_writesNobody {crates : Crates} {p : Prog Call Reply ε α}
    (hp : p.Calls Call.WritesNobody) : KeepsOwnerContract crates i q p h :=
  carries_no_row.last hp (fun _ => trivial) trivial

/-- A part that keeps to the contract, then one that writes rows for nobody. -/
theorem then_writesNobody {crates : Crates} {p : Prog Call Reply ε α} {f : α → Prog Call Reply ε β}
    (hp : KeepsOwnerContract crates i q p h) (hf : ∀ a, (f a).Calls Call.WritesNobody) :
    KeepsOwnerContract crates i q (p.bind f) h := by
  refine Contract.wp_bind.mpr (Contract.wp_mono ?_ hp)
  intro h r _
  cases r with
  | ok a => exact keepsOwners_of_writesNobody (hf a)
  | error e => exact trivial

theorem guard_read {crates : Crates} {hash : String} :
    (ownerContract crates).guard i q h (.payment (.getInvoiceByPaymentHash hash)) :=
  guard_of_writesNobody (writesNobody_of_sparesRows _ (not_not.mpr trivial))

theorem storePreimage_keepsOwners {crates : Crates} {paymentHash : String} {invoice : Invoice}
    {preimage : String} {amount : Option Int} {now : Int}
    (hrow : h.state.payments.RowOf invoice.paymentHash invoice.userPubkey) :
    KeepsOwnerContract crates i q (storePreimage paymentHash invoice preimage amount now) h := by
  simp only [storePreimage, Prog.bind_eq, Prog.pure_eq]
  split
  · exact then_writesNobody (write_row (fun _ _ _ hw => ⟨hw.1, hw.2.symm⟩) hrow) fun _ =>
      calls_enqueueZapReceipt.mono writesNobody_of_notice
  · exact Contract.wp_ret.mpr trivial

/-- A settlement writes the row back for its owner. -/
theorem handleInvoicePaid_keepsOwners {crates : Crates} {paymentHash preimage : String}
    {amount : Option Int} :
    KeepsOwnerContract crates i q (handleInvoicePaid crates paymentHash preimage amount) h := by
  simp only [handleInvoicePaid, Prog.bind_eq, Prog.pure_eq]
  refine Contract.wp_ofExcept_bind (fun _ => trivial) fun _ _ => ?_
  refine carries_no_row.bind (calls_nowMillis writesNobody_env) (fun _ => trivial) trivial
    fun now h _ => ?_
  refine Contract.wp_bind.mpr (Contract.wp_mapError.mpr
    (Contract.wp_call.mpr fun h₁ _ _ => ⟨guard_read, fun ch r s' hexec _ _ => ?_⟩))
  refine Contract.wp_ofExcept.mpr ?_
  cases r with
  | error e => exact trivial
  | ok stored =>
      cases stored with
      | none => exact Contract.wp_ret.mpr trivial
      | some invoice =>
          have hrow : s'.payments.RowOf invoice.paymentHash invoice.userPubkey := by
            rcases execPayment_cases (exec_payment hexec) with ⟨_, _, h⟩ | ⟨out, hout, hr, hs'⟩
            · cases h
            · subst hout hs'
              have hget : h₁.state.payments.invoices.get paymentHash = some invoice :=
                (Except.ok.inj hr).symm
              exact .invoice invoice (by rw [paymentHash_of_get hget]; exact hget) rfl
          exact then_writesNobody
            (Contract.wp_mapError.mpr (storePreimage_keepsOwners hrow)) fun _ =>
            Prog.calls_bind (Prog.calls_attempt.mpr (calls_notifyWebhooks.mono
              writesNobody_of_notice)) fun _ => Prog.calls_ret _

/-- A batch writes rows of known payments only. -/
theorem settleBatch_keepsOwners {crates : Crates} {invoices : List Invoice}
    (hknown : ∀ invoice ∈ invoices, ∃ v, h.state.payments.RowOf invoice.paymentHash v) :
    KeepsOwnerContract crates i q (settleBatch invoices) h := by
  simp only [settleBatch, Prog.bind_eq, Prog.pure_eq]
  refine then_writesNobody ?_ fun affected => ?_
  · refine Contract.wp_call.mpr fun h₁ hrely _ =>
      ⟨?_, fun _ _ _ _ _ _ => Contract.wp_ofExcept.mpr trivial⟩
    intro op hop
    obtain rfl := Call.payment.inj hop
    refine ⟨fun k u hw => Or.inr ?_, fun hnot => absurd rfl (hnot _)⟩
    obtain ⟨invoice, hfind, _⟩ := Option.map_eq_some_iff.mp hw.2
    have hk : invoice.paymentHash = k := by simpa using List.find?_some hfind
    obtain ⟨v, hv⟩ := hknown invoice (List.mem_of_find?_eq_some hfind)
    exact ⟨v, hk ▸ hrely.rows _ _ hv⟩
  · split
    · exact Prog.calls_ret _
    · exact calls_enqueueZapReceipts.mono writesNobody_of_notice

theorem handleInvoicesPaid_keepsOwners {crates : Crates} {items : List PaidInvoice}
    {userPubkey : String} :
    KeepsOwnerContract crates i q (handleInvoicesPaid crates items userPubkey) h := by
  simp only [handleInvoicesPaid, Prog.bind_eq, Prog.pure_eq]
  refine carries_no_row.bind (calls_nowMillis writesNobody_env) (fun _ => trivial) trivial
    fun now h _ => ?_
  refine Contract.wp_ofExcept_bind (fun _ => trivial) fun invoices _ => ?_
  refine Contract.wp_bind.mpr (Contract.wp_mapError.mpr
    (Contract.wp_call.mpr fun h₁ _ _ => ⟨?_, fun ch r s' hexec _ _ => ?_⟩))
  · exact guard_of_writesNobody (writesNobody_of_sparesRows _ (not_not.mpr trivial))
  · refine Contract.wp_ofExcept.mpr ?_
    cases r with
    | error e => exact trivial
    | ok known =>
        have hknown : ∀ hash ∈ known, ∃ v, s'.payments.RowOf hash v := by
          rcases execPayment_cases (exec_payment hexec) with ⟨_, _, h⟩ | ⟨out, hout, hr, hs'⟩
          · cases h
          · subst hout hs'
            obtain rfl := Except.ok.inj hr
            exact fun hash hhash => rowOf_of_known (List.mem_filter.mp (List.mem_dedup.mp hhash)).2
        show KeepsOwnerContract crates i q (if _ then _ else _) _
        split
        · exact Contract.wp_ret.mpr trivial
        · refine then_writesNobody (Contract.wp_mapError.mpr (settleBatch_keepsOwners ?_)) fun _ =>
            Prog.calls_bind (Prog.calls_attempt.mpr (calls_notifyWebhooks.mono
              writesNobody_of_notice)) fun _ => Prog.calls_ret _
          intro invoice hmem
          exact hknown invoice.paymentHash (by simpa using (List.mem_filter.mp hmem).2)

theorem storeZap_holds {crates : Crates} {accountId : String} {expiry at' : Int}
    {nostr : Option String} (holds : Holds crates i k u h) :
    (ownerContract crates).wp semantics (KeepsOwners crates) i q
      (storeZap k accountId u expiry at' nostr) (fun h _ => Holds crates i k u h) h := by
  cases nostr with
  | none => exact Contract.wp_ret.mpr holds
  | some zapRequest => exact write_holds (fun _ _ _ hw => ⟨hw.1, hw.2.symm⟩) holds

theorem storeComment_holds {crates : Crates} {accountId : String} {at' : Int}
    {comment : Option String} (holds : Holds crates i k u h) :
    (ownerContract crates).wp semantics (KeepsOwners crates) i q
      (storeComment k accountId u at' comment) (fun h _ => Holds crates i k u h) h := by
  unfold storeComment
  split
  · split
    · exact Contract.wp_ret.mpr holds
    · exact write_holds (fun _ _ _ hw => ⟨hw.1, hw.2.symm⟩) holds
  · exact Contract.wp_ret.mpr holds

/-- A part that keeps what the thread holds, then the rest. -/
theorem holds_bind {crates : Crates} {p : Prog Call Reply ε α} {f : α → Prog Call Reply ε β}
    (hp : (ownerContract crates).wp semantics (KeepsOwners crates) i q p
      (fun h _ => Holds crates i k u h) h)
    (hf : ∀ a h, Holds crates i k u h → KeepsOwnerContract crates i q (f a) h) :
    KeepsOwnerContract crates i q (p.bind f) h := by
  refine Contract.wp_bind.mpr (Contract.wp_mono ?_ hp)
  intro h r holds
  cases r with
  | ok a => exact hf a h holds
  | error e => exact trivial

/-- The rows of a callback are of a payment hash that was drawn for it. -/
theorem storeRows_keepsOwners {crates : Crates} {accountId domain : String} {expiry at' : Int}
    {params : LnurlPayCallbackParams} {provider : AccountProvider} {invoice : ProviderInvoice}
    {e e' : RepositoryError → ApiError} {response : InvoiceResponse}
    (holds : Holds crates i k u h) :
    KeepsOwnerContract crates i q
      (((storeZapAndComment k accountId u expiry at' params).mapError e).bind fun _ =>
        ((createProviderInvoiceForAccount k accountId provider invoice u expiry domain).mapError
          e').bind fun _ => .ret response) h := by
  refine holds_bind (k := k) (u := u) (Contract.wp_mapError.mpr ?_) fun _ h holds => ?_
  · simp only [storeZapAndComment, Prog.bind_eq]
    refine Contract.wp_bind.mpr (Contract.wp_mono ?_ (storeZap_holds holds))
    intro h r holds
    cases r with
    | ok _ => exact storeComment_holds holds
    | error _ => exact holds
  · refine then_writesNobody (Contract.wp_mapError.mpr ?_) fun _ => Prog.calls_ret _
    simp only [createProviderInvoiceForAccount, Prog.bind_eq]
    refine carries_holds.bind (calls_nowMillis writesNobody_env) (fun _ => trivial) holds
      fun now h holds => ?_
    exact Contract.wp_mono (fun _ _ _ => trivial)
      (write_holds (fun _ _ _ hw => ⟨hw.1, hw.2.symm⟩) holds)

/-- A provider is asked for an invoice: its payment hash is held for whoever. -/
theorem createInvoice_bind {crates : Crates} {request : CreateInvoiceRequest}
    {f : Except ProviderError ProviderInvoice → Handler β}
    (hf : ∀ answer h, (∀ invoice bolt11 u, answer = .ok invoice →
        crates.bolt11 invoice.bolt11 = .ok bolt11 → Holds crates i bolt11.paymentHash u h) →
      KeepsOwnerContract crates i q (f answer) h) :
    KeepsOwnerContract crates i q ((env (.createInvoice request)).bind f) h := by
  refine Contract.wp_bind.mpr (Contract.wp_call.mpr fun h₁ _ inv =>
    ⟨guard_of_writesNobody (writesNobody_env _), fun ch r s' hexec hok _ => ?_⟩)
  refine Contract.wp_ret.mpr (hf r _ fun invoice bolt11 u hanswer hbolt11 => ?_)
  subst hanswer
  have hdrawn : drawnHash crates ⟨i, .env (.createInvoice request), .ok invoice⟩ =
      some bolt11.paymentHash := by
    show (crates.bolt11 invoice.bolt11).toOption.map _ = _
    rw [hbolt11]
    rfl
  refine ⟨⟨_, List.mem_append_right _ (List.mem_singleton_self _), rfl, hdrawn⟩, ?_⟩
  intro v hrow
  -- nobody has drawn it before, so it has no rows
  have hexec : exec (.env (.createInvoice request)) ch h₁.state = some (.ok invoice, s') := hexec
  rw [Hist.push_state, (exec_env hexec).1] at hrow
  obtain ⟨j, ev, hev, _, hk⟩ := inv.drawn _ v hrow
  exact absurd hk (hok.1 _ hdrawn ev hev)

theorem callback_keepsOwners {domain identifier : String} {params : LnurlPayCallbackParams} :
    KeepsOwnerContract state.crates i q
      (handleInvoiceForResolvedDomain state domain identifier params) h := by
  have lookup : ∀ {ε α : Type} {p : Prog Call Reply ε α}, p.Calls Call.IsLookup →
      p.Calls Call.WritesNobody := fun hp =>
    hp.mono fun c hc => writesNobody_of_sparesRows c (sparesRows_of_lookup c hc)
  have spared : ∀ {α β : Type} {p : Handler α} {f : α → Handler β} {h : History},
      p.Calls Call.WritesNobody → (∀ a h, KeepsOwnerContract state.crates i q (f a) h) →
        KeepsOwnerContract state.crates i q (p.bind f) h :=
    fun hp hf => carries_no_row.bind hp (fun _ => trivial) trivial fun a h _ => hf a h
  simp only [handleInvoiceForResolvedDomain, Prog.bind_eq, Prog.pure_eq]
  refine spared Prog.calls_require fun _ h => ?_
  refine spared (lookup calls_publicRecipient) fun recipient h => ?_
  refine spared (lookup calls_requireReceiving) fun _ h => ?_
  refine spared Prog.calls_ofExcept fun amountMsat h => ?_
  refine spared Prog.calls_ofExcept fun description h => ?_
  refine spared Prog.calls_ofExcept fun expiry h => ?_
  refine spared (lookup calls_resolveMinSendableMsat) fun minSendable h => ?_
  refine spared Prog.calls_require fun _ h => ?_
  refine createInvoice_bind fun answer h drew => ?_
  refine Contract.wp_ofExcept_bind (fun _ => trivial) fun res hres => ?_
  refine Contract.wp_ofExcept_bind (fun _ => trivial) fun checked hchecked => ?_
  have hanswer : answer = .ok res := by
    cases answer with
    | ok invoice => rw [Except.ok.inj hres]
    | error e => cases hres
  have holds := drew res checked.1 (recipient.recipient.sparkPubkey.getD "") hanswer
    (checkProviderInvoice_ok hchecked).1
  refine carries_holds.bind (calls_nowMillis writesNobody_env) (fun _ => trivial) holds
    fun updatedAt h holds => ?_
  exact storeRows_keepsOwners holds

/-- A zap row is written back for its owner, after calls that write rows for
nobody. -/
theorem writeZap_keepsOwners {crates : Crates} {zap : Zap} {event : String}
    {e : RepositoryError → ε}
    (hrow : h.state.payments.RowOf zap.paymentHash zap.userPubkey) :
    KeepsOwnerContract crates i q (nowMillis.bind fun now =>
      (Store.payment (.upsertZap { zap with zapEvent := some event, updatedAt := now })).mapError e)
      h := by
  refine carries_row.bind (calls_nowMillis writesNobody_env) (fun _ => trivial) hrow
    fun now h hrow => ?_
  exact Contract.wp_mapError.mpr (write_row (fun _ _ _ hw => ⟨hw.1, hw.2.symm⟩) hrow)

theorem settleFromReceipt_keepsRow {crates : Crates} {paymentHash : String}
    {preimage : Option String} (hrow : h.state.payments.RowOf k u) :
    (ownerContract crates).wp semantics (KeepsOwners crates) i q
      (settleFromReceipt crates paymentHash preimage)
      (fun h _ => h.state.payments.RowOf k u) h := by
  cases preimage with
  | none => exact Contract.wp_ret.mpr hrow
  | some preimage =>
      refine Contract.wp_mono (fun _ _ h => h.2) (Contract.wp_keep ?_ ?_ (?_ :
        KeepsOwnerContract crates i q _ h) hrow)
      · exact fun hrely hrow => hrely.rows k u hrow
      · exact fun _ hguard hexec hok hrow => rowOf_step hguard hok.2 hexec hrow
      · refine then_writesNobody (Contract.wp_attempt.mpr handleInvoicePaid_keepsOwners)
          fun settled => ?_
        split
        · exact Prog.calls_fail _
        · exact Prog.calls_ret _

theorem publishZapReceipt_keepsOwners {pubkey paymentHash : String}
    {payload : PublishZapReceiptRequest} :
    KeepsOwnerContract state.crates i q (publishZapReceipt state pubkey paymentHash payload) h := by
  simp only [publishZapReceipt, Prog.bind_eq, Prog.pure_eq]
  refine carries_no_row.bind (calls_validate writesNobody_env) (fun _ => trivial) trivial
    fun pubkey h _ => ?_
  refine Contract.wp_ofExcept_bind (fun _ => trivial) fun zapReceipt _ => ?_
  refine Contract.wp_bind.mpr (Contract.wp_mapError.mpr
    (Contract.wp_call.mpr fun h₁ _ _ => ⟨?_, fun ch r s' hexec _ _ => ?_⟩))
  · exact guard_of_writesNobody (writesNobody_of_sparesRows _ (not_not.mpr trivial))
  · refine Contract.wp_ofExcept.mpr ?_
    cases r with
    | error e => exact trivial
    | ok stored =>
        refine Contract.wp_ofExcept_bind (fun _ => trivial) fun zap hzap => ?_
        have hrow : s'.payments.RowOf zap.paymentHash zap.userPubkey := by
          cases stored with
          | none => cases hzap
          | some stored =>
              obtain rfl := Except.ok.inj hzap
              rcases execPayment_cases (exec_payment hexec) with ⟨_, _, h⟩ | ⟨out, hout, hr, hs'⟩
              · cases h
              · subst hout hs'
                exact rowOf_of_zap (Except.ok.inj hr).symm
        refine Contract.wp_require_bind trivial fun _ => ?_
        refine Contract.wp_bind.mpr (Contract.wp_mono ?_ (settleFromReceipt_keepsRow hrow))
        intro h r hrow
        cases r with
        | error e => exact trivial
        | ok _ =>
            show KeepsOwnerContract state.crates i q _ _
            cases zap.zapEvent with
            | some stored => exact Contract.wp_ret.mpr trivial
            | none =>
                refine Contract.wp_ofExcept_bind (fun _ => trivial) fun zapRequest _ => ?_
                refine carries_row.bind (calls_receiptToPublish.mono writesNobody_of_notice)
                  (fun _ => trivial) hrow fun event h hrow => ?_
                refine carries_row.bind (calls_sendToRelays.mono writesNobody_of_notice)
                  (fun _ => trivial) hrow fun published h hrow => ?_
                refine carries_row.bind (calls_nowMillis writesNobody_env) (fun _ => trivial) hrow
                  fun now h hrow => ?_
                exact then_writesNobody (Contract.wp_mapError.mpr
                  (write_row (fun _ _ _ hw => ⟨hw.1, hw.2.symm⟩) hrow)) fun _ => Prog.calls_ret _

theorem publishPending_keepsOwners {crates : Crates} {zap : Zap} {bolt11 preimage : String}
    (hrow : h.state.payments.RowOf zap.paymentHash zap.userPubkey) :
    KeepsOwnerContract crates i q (publishPending crates zap bolt11 preimage) h := by
  simp only [publishPending, Prog.bind_eq]
  refine Contract.wp_ofExcept_bind (fun _ => trivial) fun zapRequest _ => ?_
  refine carries_row.bind (calls_env (writesNobody_env _)) (fun _ => trivial) hrow
    fun signed h hrow => ?_
  refine Contract.wp_ofExcept_bind (fun _ => trivial) fun event _ => ?_
  refine Contract.wp_require_bind trivial fun _ => ?_
  refine carries_row.bind (calls_env (writesNobody_env _)) (fun _ => trivial) hrow
    fun sent h hrow => ?_
  exact Contract.wp_require_bind trivial fun _ => writeZap_keepsOwners hrow

theorem writesNobody_payment {op : PaymentOp} (h : op.SparesRows) :
    Call.WritesNobody (.payment op) := writesNobody_of_sparesRows _ (not_not.mpr h)

theorem calls_dropPending_writesNobody {paymentHash : String} :
    (dropPending paymentHash).Calls Call.WritesNobody :=
  Prog.calls_bind (Prog.calls_attempt.mpr (calls_payment (writesNobody_payment trivial)))
    fun _ => Prog.calls_ret _

theorem processPendingZapReceipt_keepsOwners {item : PendingZapReceipt} :
    KeepsOwnerContract state.crates i q (processPendingZapReceipt state item) h := by
  have drops : ∀ {h}, KeepsOwnerContract state.crates i q (dropPending item.paymentHash) h :=
    keepsOwners_of_writesNobody calls_dropPending_writesNobody
  simp only [processPendingZapReceipt, Prog.bind_eq, Prog.pure_eq]
  split
  · exact drops
  · refine carries_no_row.bind (calls_nowMillis writesNobody_env) (fun _ => trivial) trivial
      fun now h _ => ?_
    split
    · exact drops
    · refine Contract.wp_bind.mpr (Contract.wp_attempt.mpr
        (Contract.wp_call.mpr fun h₁ _ _ => ⟨?_, fun ch r s' hexec _ _ => ?_⟩))
      · exact guard_of_writesNobody (writesNobody_payment trivial)
      · refine Contract.wp_ofExcept.mpr ?_
        show KeepsOwnerContract state.crates i q _ _
        split
        · exact Contract.wp_ret.mpr trivial
        · exact drops
        · rename_i zap invoice _ _
          split
          · exact drops
          · split
            · exact drops
            · split
              · exact Contract.wp_ret.mpr trivial
              · -- the zap that was read has the owner of its payment
                have hrow : s'.payments.RowOf zap.paymentHash zap.userPubkey := by
                  rcases execPayment_cases (exec_payment hexec) with
                    ⟨_, _, h⟩ | ⟨out, hout, hr, hs'⟩
                  · cases h
                  · subst hout hs'
                    exact rowOf_of_zap (Prod.mk.inj (Except.ok.inj hr)).1.symm
                refine Contract.wp_bind.mpr (Contract.wp_attempt.mpr
                  (Contract.wp_mono ?_ (publishPending_keepsOwners hrow)))
                intro h r _
                show KeepsOwnerContract state.crates i q _ _
                split
                · exact drops
                · exact keepsOwners_of_writesNobody (Prog.calls_bind (Prog.calls_attempt.mpr
                    (calls_payment (writesNobody_payment trivial))) fun _ => Prog.calls_ret _)

/-- A part that keeps to the contract, then the rest. -/
theorem keepsOwners_bind {crates : Crates} {p : Prog Call Reply ε α} {f : α → Prog Call Reply ε β}
    (hp : KeepsOwnerContract crates i q p h)
    (hf : ∀ a h, KeepsOwnerContract crates i q (f a) h) :
    KeepsOwnerContract crates i q (p.bind f) h := by
  refine Contract.wp_bind.mpr (Contract.wp_mono ?_ hp)
  intro h r _
  cases r with
  | ok a => exact hf a h
  | error e => exact trivial

theorem processBatch_keepsOwners {items : List PendingZapReceipt} :
    KeepsOwnerContract state.crates i q (processBatch state items) h := by
  induction items generalizing h with
  | nil => exact Contract.wp_ret.mpr trivial
  | cons item rest ih => exact keepsOwners_bind processPendingZapReceipt_keepsOwners fun _ _ => ih

theorem processPendingZapReceipts_keepsOwners {rounds : Nat} :
    KeepsOwnerContract state.crates i q (processPendingZapReceipts state rounds) h := by
  induction rounds generalizing h with
  | zero => exact Contract.wp_ret.mpr trivial
  | succ rounds ih =>
      refine keepsOwners_bind (keepsOwners_of_writesNobody (Prog.calls_attempt.mpr
        (calls_payment (writesNobody_payment trivial)))) fun pending h => ?_
      split
      · exact Contract.wp_ret.mpr trivial
      · split
        · exact Contract.wp_ret.mpr trivial
        · refine keepsOwners_bind processBatch_keepsOwners fun _ h => ?_
          split
          · exact Contract.wp_ret.mpr trivial
          · exact ih

end Pieces

theorem ownerWriters (state : State) :
    PaymentWriters (ownerContract state.crates) (KeepsOwners state.crates) state where
  spares := fun _ hc => guard_of_writesNobody (writesNobody_of_sparesRows _ hc)
  paid := handleInvoicePaid_keepsOwners
  batch := handleInvoicesPaid_keepsOwners
  expires := keepsOwners_of_writesNobody (calls_expireBlinkInvoice writesNobody_of_notice
    (writesNobody_payment trivial) fun _ op hop _ _ _ hw => by
      obtain rfl := Call.payment.inj hop
      exact hw)
  callback := callback_keepsOwners
  publish := publishZapReceipt_keepsOwners
  process := processPendingZapReceipts_keepsOwners

theorem owner_outline (state : State) :
    Outline (ownerContract state.crates) semantics (KeepsOwners state.crates) (handler state)
      (fun _ _ _ _ => True) where
  lawful := ownerContract_lawful
  post_stable := fun _ _ _ => trivial
  accept := fun _ _ => (ownerWriters state).handler

theorem owners_initial (crates : Crates) (clock : Clock) :
    (ownerContract crates).inv ⟨World.fresh clock, []⟩ := by
  have hrows : ∀ k u, ¬ (World.fresh clock).payments.RowOf k u := by
    intro k u hrow
    cases hrow with
    | invoice _ h => exact nomatch h
    | zap _ h => exact nomatch h
    | comment _ h => exact nomatch h
  refine ⟨fun k u _ hu => (hrows k u hu).elim, fun k u hu => (hrows k u hu).elim, ?_⟩
  exact fun _ _ _ ⟨_, hev, _⟩ => absurd hev List.not_mem_nil

/-! ## Isolation -/

section Runs

variable {state : State} {clock : Clock} {cfg : Server}

theorem reachable_ownersAgree
    (h : Reachable semantics (KeepsOwners state.crates) (handler state) (World.fresh clock) cfg) :
    cfg.hist.state.payments.OwnersAgree :=
  (Reachable.sound (owner_outline state) (owners_initial state.crates clock) h).inv.agree

theorem call_of_paidBatch {i : Nat} {c : Call} {r : Reply c} {invoices : List Invoice}
    (h : paidBatch ⟨i, c, r⟩ = some invoices) : c = .payment (.upsertInvoicesPaid invoices) := by
  unfold paidBatch at h
  split at h
  · rename_i hev
    rw [(Event.mk.inj hev).2.1, Option.some.inj h]
  · exact nomatch h

/-- A batch leaves every payment with one owner exactly if it inserts no row for
the payment of another. -/
theorem ownersAgree_iff
    (h : Reachable semantics (KeepsOwners state.crates) (handler state) (World.fresh clock) cfg)
    {i : Nat} {q : Request} {c : Call} {rest : Reply c → Handler Response} {ch : Choice c}
    {r : Reply c} {w' : World} (hth : cfg.threads[i]? = some ⟨q, .call c rest⟩)
    (hexec : exec c ch cfg.hist.state = some (r, w')) :
    w'.payments.OwnersAgree ↔ BatchOwned cfg.hist ⟨i, c, r⟩ := by
  have hcfg := Reachable.sound (owner_outline state) (owners_initial state.crates clock) h
  have hguard := hcfg.guard ownerContract_lawful.toKeeps hth
  refine ⟨fun hagree invoices hinvoices k u hwrites v hrow => ?_, fun hbatch =>
    ownersAgree_step hcfg.inv hguard hbatch hexec⟩
  obtain rfl := call_of_paidBatch hinvoices
  rcases execPayment_cases (exec_payment hexec) with ⟨_, e, rfl⟩ | ⟨out, rfl, rfl, rfl⟩
  · exact nomatch hinvoices
  · refine hagree k v u ?_ ((exec_owners (i := i) hexec).written k u hwrites)
    -- there was no invoice row, so the other's row is a zap or a comment, and stays
    cases hrow with
    | invoice row hget _ => exact nomatch hwrites.1.symm.trans hget
    | zap row hget hv => exact .zap row hget hv
    | comment row hget hv => exact .comment row hget hv

/-- Two runs in which no batch inserts an invoice row for the payment of
another: each pubkey is listed its own payments, and where it has the same rows
in both, its listings are the same, up to the order of equal times. A batch
keeps this exactly if it inserts no such row itself. -/
theorem metadata_isolated {clock' : Clock} {cfg' : Server}
    (h : Reachable semantics (KeepsOwners state.crates) (handler state) (World.fresh clock) cfg)
    (h' : Reachable semantics (KeepsOwners state.crates) (handler state)
      (World.fresh clock') cfg') :
    (∀ pubkey, cfg.hist.state.payments.ListsOwn pubkey) ∧
    (∀ pubkey, SameRowsOf pubkey cfg.hist.state.payments cfg'.hist.state.payments →
      ∀ offset limit updatedAfter page,
        cfg.hist.state.payments.MetadataAnswer pubkey offset limit updatedAfter page ↔
          cfg'.hist.state.payments.MetadataAnswer pubkey offset limit updatedAfter page) ∧
    ∀ i q c (rest : Reply c → Handler Response) ch r w',
      cfg.threads[i]? = some ⟨q, .call c rest⟩ → exec c ch cfg.hist.state = some (r, w') →
        ((∀ pubkey, w'.payments.ListsOwn pubkey) ↔ BatchOwned cfg.hist ⟨i, c, r⟩) := by
  have hagree := reachable_ownersAgree h
  refine ⟨ownersAgree_iff_listsOwn.mp hagree, ?_, ?_⟩
  · intro pubkey hsame offset limit updatedAfter page
    exact metadataAnswer_congr hagree (reachable_ownersAgree h') hsame
  · intro i q c rest ch r w' hth hexec
    rw [← ownersAgree_iff_listsOwn]
    exact ownersAgree_iff h hth hexec

end Runs

/-! ## Examples -/

section Example

open Deployment Schedule RustStr

def readerKey : PublicKey :=
  ⟨"02c6047f9441ed7d6d3045406e95c07cd85c778e4b8cef3ca7abac09b95c709ee5",
    forall_mem_of_all (by decide)⟩

/-- The owner of `alice`, and a reader who may own `bob`. -/
def readerSigned : Deployment :=
  { keys := [ownerKey, readerKey]
    signed := [(ownerKey, "alice-1000"), (readerKey, "bob-1000"),
      (readerKey, readerKey.hex ++ "-1000")]
    digests := [([0], "aa"), ([1], "bb"),
      (utf8 "[[\"text/plain\",\"Pay to alice@d.io\"],[\"text/identifier\",\"alice@d.io\"]]", "dd"),
      (utf8 "[[\"text/plain\",\"Pay to bob@d.io\"],[\"text/identifier\",\"bob@d.io\"]]", "ee")]
    invoices := [("lnbc1", ⟨"aa", some "dd", some 10000, some 2000000⟩),
      ("lnbc2", ⟨"bb", some "ee", some 10000, some 2000000⟩)] }

def registersReader : Request :=
  .register blinkHost readerKey.hex ⟨"bob", "3006020101020101", 1000, "Pay to bob@d.io"⟩

def commentsAlice (comment : String) : Request :=
  .handleInvoice blinkHost "alice" ⟨some 10000, some comment, none, none⟩

def commentsBob : Request :=
  .handleInvoice blinkHost "bob" ⟨some 10000, some "for bob", none, none⟩

/-- The reader knows the preimage and the invoice of the payment to `alice`. -/
def readerClaims : Request :=
  .invoicesPaid readerKey.hex ⟨"3006020101020101", 1000, [⟨"00", "lnbc1"⟩]⟩

abbrev readerRun (ok : History → CallEvent → Prop) [∀ h ev, Decidable (ok h ev)] (ms : Schedule) :
    Option Server :=
  replay semantics ok (handler readerSigned.state) ms
    (.initial (World.fresh ⟨1000000, startMillis_fits⟩))

def aliceInvoiced : Schedule :=
  serve registersPayee ++ calls 0 4 ++ serve asksInvoice ++ calls 1 7 invoiceAnswer

/-- The reader has the preimage and the invoice of its own payment. -/
def readerSettles : Request :=
  .invoicesPaid readerKey.hex ⟨"3006020101020101", 1000, [⟨"01", "lnbc2"⟩]⟩

/-- The reader as well has a payment: a comment is stored for it, and the batch of the reader
inserts the row of its invoice. -/
def bothInvoiced : Schedule :=
  aliceInvoiced ++ serve registersReader ++ calls 2 4 { generatedId := "acct_2" } ++
    serve commentsBob ++
    calls 3 7 { generatedId := "acct_3", invoice := .ok ⟨"lnbc2", .btc, none, none⟩ } ++
    calls 3 1 { generatedId := "acct_3", fails := true } ++ serve readerSettles ++
    calls 4 4 { generatedId := "acct_3" }

/-- The comment is stored, the invoice row is not, and the reader settles it. -/
def claimed (comment : String) : Schedule :=
  serve registersPayee ++ calls 0 4 ++ serve (commentsAlice comment) ++ calls 1 7 invoiceAnswer ++
    calls 1 1 { invoiceAnswer with fails := true } ++ serve readerClaims ++ calls 2 4

instance (crates : Crates) (h : History) (ev : CallEvent) : Decidable (DrawsFresh crates h ev) :=
  decidable_of_iff ((drawnHash crates ev).all fun k =>
      h.log.all fun ev' => drawnHash crates ev' ≠ some k) <| by
    unfold DrawsFresh
    constructor
    · intro hall k hk ev' hev'
      rw [hk, Option.all_some, List.all_eq_true] at hall
      exact of_decide_eq_true (hall ev' hev')
    · intro hfresh
      rw [Option.all_eq_true_iff_get]
      intro hdrawn
      rw [List.all_eq_true]
      intro ev' hev'
      exact decide_eq_true (hfresh _ (Option.some_get hdrawn).symm ev' hev')

/-- The owners of the rows of a payment. -/
def ownersOf (s : PaymentStore) (k : String) : List String :=
  ((s.invoices.get k).map Invoice.userPubkey).toList ++
    ((s.zaps.get k).map Zap.userPubkey).toList ++
    ((s.senderComments.get k).map LnurlSenderComment.userPubkey).toList

theorem mem_ownersOf {s : PaymentStore} {k u : String} : u ∈ ownersOf s k ↔ s.RowOf k u := by
  simp only [ownersOf, List.mem_append, Option.mem_toList, rowOf_iff, or_assoc]

/-- A step of a run whose batches are about payments of their owners only. -/
def OwnBatches (h : History) (ev : CallEvent) : Prop :=
  DrawsFresh readerSigned.state.crates h ev ∧
    ∀ i ∈ (paidBatch ev).getD [], ∀ u ∈ ownersOf h.state.payments i.paymentHash, u = i.userPubkey

instance (h : History) (ev : CallEvent) : Decidable (OwnBatches h ev) :=
  inferInstanceAs (Decidable (_ ∧ _))

theorem keepsOwners_of_ownBatches (h : History) (ev : CallEvent) (howns : OwnBatches h ev) :
    KeepsOwners readerSigned.state.crates h ev := by
  refine ⟨howns.1, fun invoices hinvoices k u hwrites v hrow => ?_⟩
  obtain ⟨i, hfound, rfl⟩ := Option.map_eq_some_iff.mp hwrites.2
  have hhash := List.find?_some hfound
  obtain rfl : i.paymentHash = k := by simpa using hhash
  refine howns.2 i ?_ v (mem_ownersOf.mpr hrow)
  rw [hinvoices]
  exact List.mem_of_find?_eq_some hfound

/-- The rows of the owner of `alice` after `aliceInvoiced`. -/
def aliceRow : Invoice :=
  { accountId := some "acct", provider := some .spark, walletKind := some .btc, walletId := none
    providerPaymentHash := none, paymentHash := "aa", userPubkey := ownerKey.hex
    invoice := "lnbc1", preimage := none, expiredAt := none, invoiceExpiry := 2000
    createdAt := 1000000, updatedAt := 1000000, domain := some "d.io", amountReceivedSat := none }

/-- The invoice row of the reader after `claimed`. -/
def readerRow : Invoice :=
  { accountId := none, provider := none, walletKind := none, walletId := none
    providerPaymentHash := none, paymentHash := "aa", userPubkey := readerKey.hex
    invoice := "lnbc1", preimage := some "00", expiredAt := none, invoiceExpiry := 2000000
    createdAt := 1000000, updatedAt := 1000000, domain := none, amountReceivedSat := none }

/-- The owner of an invoice row has that row, no zap and no comment. -/
def HasOnly (row : Invoice) (s : PaymentStore) : Prop :=
  s.invoices.select (fun i => i.userPubkey = row.userPubkey) = [row] ∧
    s.zaps.select (fun z => z.userPubkey = row.userPubkey) = [] ∧
    s.senderComments.select (fun c => c.userPubkey = row.userPubkey) = []

instance (row : Invoice) (s : PaymentStore) : Decidable (HasOnly row s) :=
  inferInstanceAs (Decidable (_ ∧ _))

theorem HasOnly.same {row : Invoice} {s s' : PaymentStore} (h : HasOnly row s)
    (h' : HasOnly row s') : SameRowsOf row.userPubkey s s' := by
  have same : ∀ {ρ : Type} [Schema ρ] {t t' : Table ρ} {p : ρ → Bool} {r : ρ},
      t.select p = t'.select p → p r = true → (r ∈ t ↔ r ∈ t') := by
    intro ρ _ t t' p r heq hr
    have hmem : r ∈ t.select p ↔ r ∈ t'.select p := by rw [heq]
    simpa only [Table.mem_select, hr, and_true] using hmem
  obtain ⟨hinvoices, hzaps, hcomments⟩ := h
  obtain ⟨hinvoices', hzaps', hcomments'⟩ := h'
  exact ⟨fun _ hr => same (hinvoices.trans hinvoices'.symm) (decide_eq_true hr),
    fun _ hr => same (hzaps.trans hzaps'.symm) (decide_eq_true hr),
    fun _ hr => same (hcomments.trans hcomments'.symm) (decide_eq_true hr)⟩

theorem HasOnly.rowOf {row : Invoice} {s : PaymentStore} (h : HasOnly row s) :
    s.RowOf row.paymentHash row.userPubkey := by
  have hselected := List.mem_singleton_self row
  rw [← h.1, Table.mem_select] at hselected
  exact .invoice row (Table.get_eq_some.mpr ⟨hselected.1, rfl⟩) rfl

theorem metadata_isolated_from_reader :
    ∃ cfg cfg' : Server,
      Reachable semantics (KeepsOwners readerSigned.state.crates) (handler readerSigned.state)
        (World.fresh ⟨1000000, by decide⟩) cfg ∧
      Reachable semantics (KeepsOwners readerSigned.state.crates) (handler readerSigned.state)
        (World.fresh ⟨1000000, by decide⟩) cfg' ∧
      cfg.hist.state.payments.RowOf "aa" ownerKey.hex ∧
      cfg'.hist.state.payments.RowOf "bb" readerKey.hex ∧
      (cfg'.hist.log.any fun ev => (paidBatch ev).isSome) = true ∧
      ∀ offset limit updatedAfter page,
        cfg.hist.state.payments.MetadataAnswer ownerKey.hex offset limit updatedAfter page ↔
          cfg'.hist.state.payments.MetadataAnswer ownerKey.hex offset limit updatedAfter page := by
  have halice : (readerRun OwnBatches aliceInvoiced).any (fun cfg =>
      decide (HasOnly aliceRow cfg.hist.state.payments)) = true := by decide +kernel
  have hboth : (readerRun OwnBatches bothInvoiced).any (fun cfg =>
      decide (HasOnly aliceRow cfg.hist.state.payments ∧
        (cfg.hist.state.payments.invoices.get "bb").map Invoice.userPubkey =
          some readerKey.hex ∧
        (cfg.hist.log.any fun ev => (paidBatch ev).isSome) = true)) = true := by decide +kernel
  obtain ⟨cfg, hreach, _, hrows⟩ := reachable_of_replay halice
  obtain ⟨cfg', hreach', _, hrows'⟩ := reachable_of_replay hboth
  have hrows := of_decide_eq_true hrows
  obtain ⟨hrows', hinvoice, hbatch⟩ := of_decide_eq_true hrows'
  have hreach := Steps.mono keepsOwners_of_ownBatches hreach
  have hreach' := Steps.mono keepsOwners_of_ownBatches hreach'
  obtain ⟨_, hisolated, _⟩ := metadata_isolated hreach hreach'
  exact ⟨cfg, cfg', hreach, hreach', hrows.rowOf, rowOf_iff.mpr (Or.inl hinvoice), hbatch,
    hisolated _ (hrows.same hrows')⟩

/-- What the reader is listed of a payment to `alice`. -/
def listedReader (comment : String) : List ListMetadataMetadata :=
  [{ paymentHash := "aa", accountId := some "acct", senderComment := some comment
     nostrZapRequest := none, nostrZapReceipt := none, updatedAt := 1000000
     preimage := some "00" }]

/-- There is one order of one row. -/
theorem metadataAnswer_singleton {s : PaymentStore} {pubkey : String} {updatedAfter : Option Int}
    {row : ListMetadataMetadata} (h : s.metadataRows pubkey updatedAfter = [row])
    {page : List ListMetadataMetadata} :
    s.MetadataAnswer pubkey 0 1 updatedAfter page ↔ page = [row] := by
  unfold MetadataAnswer
  rw [h]
  constructor
  · intro ⟨rows, hperm, _, hpage⟩
    rw [hpage, List.perm_singleton.mp hperm]
    rfl
  · intro hpage
    exact ⟨[row], List.Perm.refl _, List.pairwise_singleton _ _, hpage⟩

/-- A callback to `alice` stores its comment and fails before its invoice. The
reader settles the payment, and is listed the comment that was meant for
`alice`. -/
theorem comment_listed_for_another :
    ∃ cfg cfg' : Server,
      Reachable semantics (DrawsFresh readerSigned.state.crates) (handler readerSigned.state)
        (World.fresh ⟨1000000, by decide⟩) cfg ∧
      Reachable semantics (DrawsFresh readerSigned.state.crates) (handler readerSigned.state)
        (World.fresh ⟨1000000, by decide⟩) cfg' ∧
      cfg.request 1 = some (commentsAlice "one") ∧ cfg'.request 1 = some (commentsAlice "two") ∧
      SameRowsOf readerKey.hex cfg.hist.state.payments cfg'.hist.state.payments ∧
      cfg.hist.state.payments.MetadataAnswer readerKey.hex 0 1 none (listedReader "one") ∧
      ¬ cfg'.hist.state.payments.MetadataAnswer readerKey.hex 0 1 none (listedReader "one") := by
  have hone : (readerRun (DrawsFresh readerSigned.state.crates) (claimed "one")).any (fun cfg =>
      decide (HasOnly readerRow cfg.hist.state.payments ∧
        cfg.hist.state.payments.metadataRows readerKey.hex none = listedReader "one")) = true := by
    decide +kernel
  have htwo : (readerRun (DrawsFresh readerSigned.state.crates) (claimed "two")).any (fun cfg =>
      decide (HasOnly readerRow cfg.hist.state.payments ∧
        cfg.hist.state.payments.metadataRows readerKey.hex none = listedReader "two")) = true := by
    decide +kernel
  obtain ⟨cfg, hreach, hserved, hlisted⟩ := reachable_of_replay hone
  obtain ⟨cfg', hreach', hserved', hlisted'⟩ := reachable_of_replay htwo
  obtain ⟨hrow, hlisted⟩ := of_decide_eq_true hlisted
  obtain ⟨hrow', hlisted'⟩ := of_decide_eq_true hlisted'
  refine ⟨cfg, cfg', hreach, hreach', hserved 1, hserved' 1, hrow.same hrow', ?_, ?_⟩
  · exact (metadataAnswer_singleton hlisted).mpr rfl
  · rw [metadataAnswer_singleton hlisted']
    decide

end Example

end BlinkLnurl
