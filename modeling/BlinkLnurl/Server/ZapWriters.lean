import BlinkLnurl.Lib.LastWrite
import BlinkLnurl.Server.Deployment
import BlinkLnurl.Server.Effects
import BlinkLnurl.Server.PaymentWriters

/-!
# What the routes hold when they write zap rows

The callback stores a zap without a receipt. The two publishers read the zap row,
find no receipt in it, build an event, and write the row back with it. In between
they make any number of other calls, so what they hold is what their own last
reading of the row has said (`lastZapRead`), and the answer of the signer.
-/

namespace BlinkLnurl

open Conc Rel PaymentStore

/-! ## What the log says about zaps -/

/-- The zap row that a call has written. -/
def zapRow : CallEvent → Option Zap
  | ⟨_, .payment (.upsertZap zap), .ok _⟩ => some zap
  | _ => none

/-- The zap row that a call has read, with the invoice row if that was read too. -/
def zapRead : CallEvent → Option (Zap × Option Invoice)
  | ⟨_, .payment (.getZapByPaymentHash _), .ok (some zap)⟩ => some (zap, none)
  | ⟨_, .payment (.getZapAndInvoiceByPaymentHash _), .ok (some zap, invoice)⟩ => some (zap, invoice)
  | _ => none

def writesReceipt (k : String) (ev : CallEvent) : Option (Option String) :=
  (zapRow ev).bind fun zap => if zap.paymentHash = k then some zap.zapEvent else none

def readsZap (k : String) (ev : CallEvent) : Option (Option (Zap × Option Invoice)) :=
  (zapRead ev).bind fun row => if row.1.paymentHash = k then some (some row) else none

/-- The receipt last written for a payment hash. -/
def lastReceipt (k : String) (log : List CallEvent) : Option String :=
  lastWrite (writesReceipt k) none log

/-- What a thread has last read about the zap of a payment hash. -/
def lastZapRead (k : String) (calls : List CallEvent) : Option (Zap × Option Invoice) :=
  lastWrite (readsZap k) none calls

/-- The receipt stored for a payment hash. -/
def World.receiptOf (w : World) (k : String) : Option String :=
  (w.payments.zaps.get k).bind Zap.zapEvent

/-- The calls that read or write no zap row. -/
def Call.SkipsZaps : Call → Prop
  | .payment op => op.SparesZaps
  | _ => True

section Log

variable {k : String} {calls : List CallEvent} {i : Nat} {c : Call} {r : Reply c} {zap : Zap}
  {row : Zap × Option Invoice} {h : History} {s' : World}

theorem call_of_zapRow (h : zapRow ⟨i, c, r⟩ = some zap) : c = .payment (.upsertZap zap) := by
  unfold zapRow at h
  split at h
  · rename_i hev
    obtain ⟨_, hcall⟩ := Event.mk.inj hev
    rw [hcall.1, Option.some.inj h]
  · cases h

theorem read_of_readsZap {ev : CallEvent} (h : readsZap k ev = some (some row)) :
    zapRead ev = some row ∧ row.1.paymentHash = k := by
  obtain ⟨row', hrow, hkey⟩ := Option.bind_eq_some_iff.mp h
  split at hkey
  · rename_i hk
    obtain rfl := Option.some.inj (Option.some.inj hkey)
    exact ⟨hrow, hk⟩
  · cases hkey

theorem zapRead_of_skips (hc : c.SkipsZaps) : zapRead ⟨i, c, r⟩ = none := by
  cases c with
  | payment op => cases op <;> first | rfl | exact absurd hc id
  | account op => rfl
  | env op => rfl

theorem skips_of_sparesZaps (c : Call) (h : c.SparesZaps) : c.SkipsZaps := by
  cases c with
  | payment op => exact h
  | account op => trivial
  | env op => trivial

theorem skips_of_notice (c : Call) (h : c.IsNotice) : c.SkipsZaps :=
  skips_of_sparesZaps c (Call.IsNotice.sparesZaps c h)

/-- A call that reads no zap row leaves what the thread has read. -/
theorem lastZapRead_skips (hc : c.SkipsZaps) :
    lastZapRead k ((h.push ⟨i, c, r⟩ s').callsOf i) = lastZapRead k (h.callsOf i) := by
  unfold lastZapRead
  rw [Hist.callsOf_push_self, lastWrite_concat, readsZap, zapRead_of_skips hc]
  rfl

/-- What the thread has read just now. -/
theorem lastZapRead_push (hread : zapRead ⟨i, c, r⟩ = some row) :
    lastZapRead row.1.paymentHash ((h.push ⟨i, c, r⟩ s').callsOf i) = some row := by
  unfold lastZapRead
  rw [Hist.callsOf_push_self, lastWrite_concat, readsZap, hread, Option.bind_some, if_pos rfl]
  rfl

end Log

section Read

variable {k : String} {i : Nat} {c : Call} {ch : Choice c} {r : Reply c} {w w' : World}
  {row : Zap × Option Invoice}

/-- The answer to a reading of a zap row. -/
theorem read_zap {ch : PaymentChoice} {stored : Option Zap}
    (hexec : exec (.payment (.getZapByPaymentHash k)) ch w = some (.ok stored, w')) :
    w.payments.zaps.get k = stored := by
  rcases execPayment_cases (exec_payment hexec) with ⟨_, _, h⟩ | ⟨out, hout, hr, _⟩
  · cases h
  · subst hout
    exact (Except.ok.inj hr).symm

theorem read_zapAndInvoice {ch : PaymentChoice} {stored : Option Zap × Option Invoice}
    (hexec : exec (.payment (.getZapAndInvoiceByPaymentHash k)) ch w = some (.ok stored, w')) :
    w.payments.zaps.get k = stored.1 ∧ w.payments.invoiceOf k = stored.2 := by
  rcases execPayment_cases (exec_payment hexec) with ⟨_, _, h⟩ | ⟨out, hout, hr, _⟩
  · cases h
  · subst hout
    obtain rfl := Except.ok.inj hr
    exact ⟨rfl, rfl⟩

theorem zap_paymentHash {zap : Zap} (h : w.payments.zaps.get k = some zap) : zap.paymentHash = k :=
  Table.key_of_get h

/-- The rows read are the ones stored. -/
theorem stored_of_zapRead (hexec : exec c ch w = some (r, w'))
    (hread : zapRead ⟨i, c, r⟩ = some row) :
    w.payments.zaps.get row.1.paymentHash = some row.1 ∧
      ∀ invoice, row.2 = some invoice → w.payments.invoiceOf row.1.paymentHash = some invoice := by
  unfold zapRead at hread
  split at hread
  · rename_i k zap hev
    cases hev
    obtain rfl := Option.some.inj hread
    have hstored := read_zap hexec
    obtain rfl := zap_paymentHash hstored
    exact ⟨hstored, fun _ h => by cases h⟩
  · rename_i k zap invoice hev
    cases hev
    obtain rfl := Option.some.inj hread
    obtain ⟨hstored, hinvoice⟩ := read_zapAndInvoice hexec
    obtain rfl := zap_paymentHash hstored
    exact ⟨hstored, fun _ h => by rw [hinvoice]; exact h⟩
  · cases hread

end Read

/-! ## The contract -/

/-- The thread has the answer of the signer to these tags. -/
def SignedReceipt (calls : List CallEvent) (tags : List NostrTag) (event : NostrEvent) : Prop :=
  ∃ i, ⟨i, .env (.signEvent NostrEvent.zapReceiptKind tags), some event⟩ ∈ calls

/-- The thread has last read this row, without a receipt, and is about to write it
back with one. -/
structure ReadEmpty (calls : List CallEvent) (zap : Zap) (row : Zap × Option Invoice) : Prop where
  read : lastZapRead zap.paymentHash calls = some row
  empty : row.1.zapEvent = none
  sameKey : zap.isUserNostrKey = row.1.isUserNostrKey

theorem ReadEmpty.mem {calls : List CallEvent} {zap : Zap} {row : Zap × Option Invoice}
    (h : ReadEmpty calls zap row) : ∃ ev ∈ calls, zapRead ev = some row := by
  obtain ⟨earlier, ev, later, hcalls, hev, _⟩ := exists_of_lastWrite h.read (Option.some_ne_none _)
  refine ⟨ev, ?_, (read_of_readsZap hev).1⟩
  rw [hcalls]
  exact List.mem_append_right _ List.mem_cons_self

/-- A zap row is a new one, or the row that the thread has last read without a
receipt, with the client's own event, one the server has signed for the client's
tags, or one it has signed for the invoice row read along with it. -/
inductive MayWriteZap (state : State) (q : Request) (calls : List CallEvent) (zap : Zap) : Prop
  | creates : zap.zapEvent = none → zap.isUserNostrKey = false → MayWriteZap state q calls zap
  | forwards {row} : ReadEmpty calls zap row → zap.zapEvent ≠ none → zap.isUserNostrKey = true →
      MayWriteZap state q calls zap
  | supplied {row pubkey payload receipt zapRequest bolt11 event} :
      ReadEmpty calls zap (row, none) →
      q = .publishZapReceipt pubkey zap.paymentHash payload →
      parseZapReceipt state.crates payload.zapReceipt = .ok receipt →
      findBolt11 receipt.tags = some bolt11 →
      (∀ p, findPreimage receipt.tags = some p →
        preimageHash state.crates p = .ok zap.paymentHash) →
      SignedReceipt calls
        (state.crates.zapReceiptTags bolt11 (findPreimage receipt.tags) zapRequest) event →
      zap.zapEvent = some event.json → MayWriteZap state q calls zap
  | paid {row invoice preimage zapRequest event} :
      ReadEmpty calls zap (row, some invoice) → invoice.preimage = some preimage →
      SignedReceipt calls (zapReceiptTags row zapRequest invoice.invoice preimage) event →
      zap.zapEvent = some event.json → MayWriteZap state q calls zap

/-- A receipt is written over what the thread has read without one. -/
theorem MayWriteZap.read {state : State} {q : Request} {calls : List CallEvent} {zap : Zap}
    (hmay : MayWriteZap state q calls zap) (hsome : zap.zapEvent ≠ none) :
    ∃ row, ReadEmpty calls zap row := by
  cases hmay with
  | creates hnone => exact absurd hnone hsome
  | forwards hread => exact ⟨_, hread⟩
  | supplied hread => exact ⟨_, hread⟩
  | paid hread => exact ⟨_, hread⟩

/-- The receipts stored are those last written, and all receipts are for the server
to sign. -/
structure ZapsTold (h : History) : Prop where
  written : ∀ k, h.state.receiptOf k = lastReceipt k h.log
  serverKey : ∀ k zap, h.state.payments.zaps.get k = some zap → zap.isUserNostrKey = false
  readServerKey : ∀ ev ∈ h.log, ∀ row, zapRead ev = some row → row.1.isUserNostrKey = false

def zapContract (state : State) : Contract Request Call Reply World where
  inv := ZapsTold
  rely i h h' := h'.callsOf i = h.callsOf i
  guard i q h c := ∀ zap, c = .payment (.upsertZap zap) → MayWriteZap state q (h.callsOf i) zap

section Law

variable {state : State} {ok : History → CallEvent → Prop} {h : History} {i : Nat} {q : Request}
  {c : Call} {ch : Choice c} {r : Reply c} {w w' : World} {zap : Zap} {k : String}

/-- Calls that write no zap row leave them. -/
theorem zaps_of_unwritten (hexec : exec c ch w = some (r, w')) (hrow : zapRow ⟨i, c, r⟩ = none) :
    w'.payments.zaps = w.payments.zaps := by
  rcases exec_payments hexec with hsame | ⟨op, rfl⟩
  · rw [hsame]
  · rcases execPayment_cases (exec_payment hexec) with ⟨rfl, _⟩ | ⟨out, hout, rfl, rfl⟩
    · rfl
    · subst hout
      cases op with
      | upsertZap zap => cases hrow
      | insertPendingZapReceiptBatch pending => exact insertPendingZapReceiptBatch_zaps
      | _ => rfl

/-- The row after a zap row was written. -/
theorem zap_of_written (hexec : exec c ch w = some (r, w')) (hrow : zapRow ⟨i, c, r⟩ = some zap)
    (k : String) :
    w'.payments.zaps.get k =
      if k = zap.paymentHash then
        some ((w.payments.zaps.get k).elim zap fun old => { zap with
          paymentHash := old.paymentHash
          accountId := zap.accountId.or old.accountId })
      else w.payments.zaps.get k := by
  obtain rfl := call_of_zapRow hrow
  rcases execPayment_cases (exec_payment hexec) with ⟨_, e, rfl⟩ | ⟨out, rfl, _, rfl⟩
  · cases hrow
  · exact Table.get_upsert

theorem receiptOf_of_written (hexec : exec c ch w = some (r, w'))
    (hrow : zapRow ⟨i, c, r⟩ = some zap) :
    w'.receiptOf k = if zap.paymentHash = k then zap.zapEvent else w.receiptOf k := by
  unfold World.receiptOf
  rw [zap_of_written hexec hrow]
  by_cases hk : k = zap.paymentHash
  · rw [if_pos hk, if_pos hk.symm]
    cases w.payments.zaps.get k <;> rfl
  · rw [if_neg hk, if_neg (Ne.symm hk)]

/-- Nobody writes a row that the server does not sign for. -/
theorem ZapsTold.serverWrites (told : ZapsTold h) (hmay : MayWriteZap state q (h.callsOf i) zap) :
    zap.isUserNostrKey = false := by
  have hread : ∀ {row}, ReadEmpty (h.callsOf i) zap row → zap.isUserNostrKey = false := by
    intro row hread
    obtain ⟨ev, hev, hrow⟩ := hread.mem
    rw [hread.sameKey]
    exact told.readServerKey ev (Hist.mem_callsOf.mp hev).1 row hrow
  cases hmay with
  | creates _ hserver => exact hserver
  | forwards hempty => exact hread hempty
  | supplied hempty => exact hread hempty
  | paid hempty => exact hread hempty

theorem ZapsTold.call (told : ZapsTold h) (hguard : (zapContract state).guard i q h c)
    (hexec : exec c ch h.state = some (r, w')) : ZapsTold (h.push ⟨i, c, r⟩ w') := by
  have hserver : ∀ k zap, w'.payments.zaps.get k = some zap → zap.isUserNostrKey = false := by
    intro k stored hstored
    cases hrow : zapRow ⟨i, c, r⟩ with
    | none =>
        rw [zaps_of_unwritten hexec hrow] at hstored
        exact told.serverKey k stored hstored
    | some zap =>
        have hfalse := told.serverWrites (hguard zap (call_of_zapRow hrow))
        rw [zap_of_written hexec hrow] at hstored
        split at hstored
        · obtain rfl := Option.some.inj hstored
          cases h.state.payments.zaps.get k <;> exact hfalse
        · exact told.serverKey k stored hstored
  refine ⟨fun k => ?_, hserver, fun ev hev row hrow => ?_⟩
  · show w'.receiptOf k = lastWrite (writesReceipt k) none (h.log ++ [⟨i, c, r⟩])
    have hbefore : h.state.receiptOf k = lastWrite (writesReceipt k) none h.log := told.written k
    rw [lastWrite_concat, writesReceipt, ← hbefore]
    cases hrow : zapRow ⟨i, c, r⟩ with
    | none =>
        unfold World.receiptOf
        rw [zaps_of_unwritten hexec hrow]
        rfl
    | some zap =>
        rw [receiptOf_of_written hexec hrow, Option.bind_some]
        by_cases hk : zap.paymentHash = k
        · rw [if_pos hk, if_pos hk]
          rfl
        · rw [if_neg hk, if_neg hk]
          rfl
  · rcases List.mem_append.mp hev with hev | hev
    · exact told.readServerKey ev hev row hrow
    · obtain rfl := List.mem_singleton.mp hev
      exact told.serverKey _ _ (stored_of_zapRead hexec hrow).1

theorem zapContract_lawful : (zapContract state).Lawful semantics ok where
  refl := fun _ _ => rfl
  trans := fun h₁ h₂ => h₂.trans h₁
  call := fun told hguard hexec _ => told.call hguard hexec
  tick := fun {h t s'} told htick => by
    obtain ⟨_, hpayments, _⟩ := tick_cases htick
    refine ⟨fun k => ?_, ?_, told.readServerKey⟩
    · show (s'.payments.zaps.get k).bind Zap.zapEvent = _
      rw [hpayments]
      exact told.written k
    · show ∀ k zap, s'.payments.zaps.get k = some zap → _
      rw [hpayments]
      exact told.serverKey
  ticks := fun _ _ => rfl
  others := fun _ _ _ _ hne => Hist.callsOf_push_ne hne

end Law

/-! ## The pieces that write zap rows -/

section Pieces

variable {state : State} {crates : Crates} {ok : History → CallEvent → Prop} {h : History} {i : Nat}
  {q : Request} {k : String} {zap : Zap} {ε α β : Type}

theorem callsOf_rely {h' : History} (hrely : (zapContract state).rely i h h') :
    h'.callsOf i = h.callsOf i := hrely

theorem mayWriteZap_skips {c : Call} (hc : c.SkipsZaps) : (zapContract state).guard i q h c := by
  intro zap hzap
  subst hzap
  exact absurd hc id

/-- What holds of the calls of a thread and of those calls with more to come,
through calls that read or write no zap row. -/
theorem skipping_carries {J : List CallEvent → Prop}
    (hJ : ∀ {h : History} {c : Call} {r : Reply c} {s' : World}, c.SkipsZaps → J (h.callsOf i) →
      J ((h.push ⟨i, c, r⟩ s').callsOf i)) :
    (zapContract state).Carries semantics ok i q Call.SkipsZaps fun h => J (h.callsOf i) where
  rely := fun hrely hI => by
    rw [callsOf_rely hrely]
    exact hI
  guard := fun _ hc => mayWriteZap_skips hc
  call := fun _ hc _ _ hI => hJ hc hI

theorem idle_carries :
    (zapContract state).Carries semantics ok i q Call.SkipsZaps fun _ => True :=
  skipping_carries (J := fun _ => True) fun _ _ => trivial

theorem read_carries {row : Option (Zap × Option Invoice)} :
    (zapContract state).Carries semantics ok i q Call.SkipsZaps
      fun h => lastZapRead k (h.callsOf i) = row :=
  skipping_carries (J := fun calls => lastZapRead k calls = row) fun hc hI =>
    (lastZapRead_skips hc).trans hI

theorem SignedReceipt.mono {calls calls' : List CallEvent} {tags : List NostrTag}
    {event : NostrEvent} (hcalls : calls <+: calls') (h : SignedReceipt calls tags event) :
    SignedReceipt calls' tags event := by
  obtain ⟨j, hev⟩ := h
  exact ⟨j, hcalls.subset hev⟩

/-- The signer has just answered. -/
theorem signedReceipt_push {tags : List NostrTag} {event : NostrEvent} {s' : World} :
    SignedReceipt ((h.push ⟨i, .env (.signEvent NostrEvent.zapReceiptKind tags), some event⟩
      s').callsOf i) tags event := by
  rw [Hist.callsOf_push_self]
  exact ⟨i, List.mem_append_right _ List.mem_cons_self⟩

theorem ReadEmpty.skips {c : Call} {r : Reply c} {s' : World} {row : Zap × Option Invoice}
    (hc : c.SkipsZaps) (hread : ReadEmpty (h.callsOf i) zap row) :
    ReadEmpty ((h.push ⟨i, c, r⟩ s').callsOf i) zap row :=
  ⟨(lastZapRead_skips hc).trans hread.read, hread.empty, hread.sameKey⟩

/-- Calls that skip zaps keep what a thread may write. -/
theorem MayWriteZap.skips {c : Call} {r : Reply c} {s' : World} (hc : c.SkipsZaps)
    (hmay : MayWriteZap state q (h.callsOf i) zap) :
    MayWriteZap state q ((h.push ⟨i, c, r⟩ s').callsOf i) zap := by
  have hcalls : h.callsOf i <+: (h.push ⟨i, c, r⟩ s').callsOf i := by
    rw [Hist.callsOf_push_self]
    exact List.prefix_append _ _
  cases hmay with
  | creates hnone hserver => exact .creates hnone hserver
  | forwards hread hsome huser => exact .forwards (hread.skips hc) hsome huser
  | supplied hread hq hparse hbolt11 hpays hsigned hevent =>
      exact .supplied (hread.skips hc) hq hparse hbolt11 hpays (hsigned.mono hcalls) hevent
  | paid hread hpreimage hsigned hevent =>
      exact .paid (hread.skips hc) hpreimage (hsigned.mono hcalls) hevent

/-- The time of the update does not matter. -/
theorem MayWriteZap.touch {calls : List CallEvent} {now : Int}
    (hmay : MayWriteZap state q calls zap) :
    MayWriteZap state q calls { zap with updatedAt := now } := by
  cases hmay with
  | creates hnone hserver => exact .creates hnone hserver
  | forwards hread hsome huser =>
      exact .forwards ⟨hread.read, hread.empty, hread.sameKey⟩ hsome huser
  | supplied hread hq hparse hbolt11 hpays hsigned hevent =>
      exact .supplied ⟨hread.read, hread.empty, hread.sameKey⟩ hq hparse hbolt11 hpays
        hsigned hevent
  | paid hread hpreimage hsigned hevent =>
      exact .paid ⟨hread.read, hread.empty, hread.sameKey⟩ hpreimage hsigned hevent

theorem mayWriteZap_carries : (zapContract state).Carries semantics ok i q Call.SkipsZaps
    fun h => MayWriteZap state q (h.callsOf i) zap :=
  skipping_carries (J := fun calls => MayWriteZap state q calls zap) MayWriteZap.skips

theorem writeZap_may {e : RepositoryError → ε} (hmay : MayWriteZap state q (h.callsOf i) zap) :
    (zapContract state).wp semantics ok i q ((Store.payment (.upsertZap zap)).mapError e)
      (fun _ _ => True) h := by
  refine Contract.wp_mapError.mpr (Contract.wp_call.mpr fun h₁ hrely _ => ⟨?_, ?_⟩)
  · intro zap' hzap
    obtain rfl := PaymentOp.upsertZap.inj (Call.payment.inj hzap)
    rw [callsOf_rely hrely]
    exact hmay
  · exact fun _ _ _ _ _ _ => Contract.wp_ofExcept.mpr trivial

/-- A receipt with a preimage of another payment ends the request. -/
theorem settleFromReceipt_of_invalid {paymentHash preimage : String} {e : HandleInvoicePaidError}
    (h : verifyPreimage crates paymentHash preimage = .error e) :
    settleFromReceipt crates paymentHash (some preimage) =
    .fail (zapError 400 "invalid preimage") := by
  obtain ⟨message, rfl⟩ := verifyPreimage_error h
  simp only [settleFromReceipt, handleInvoicePaid, h]
  rfl

theorem settleFromReceipt_read {paymentHash : String} {preimage : Option String}
    {row : Option (Zap × Option Invoice)} (hread : lastZapRead k (h.callsOf i) = row) :
    (zapContract state).wp semantics ok i q (settleFromReceipt crates paymentHash preimage)
      (fun h r => r = .ok () → lastZapRead k (h.callsOf i) = row ∧
        ∀ p, preimage = some p → preimageHash crates p = .ok paymentHash) h := by
  cases preimage with
  | none => exact Contract.wp_ret.mpr fun _ => ⟨hread, fun _ h => by cases h⟩
  | some preimage =>
      cases hverify : verifyPreimage crates paymentHash preimage with
      | error e =>
          rw [settleFromReceipt_of_invalid hverify]
          exact Contract.wp_fail.mpr fun hr => by cases hr
      | ok u =>
          refine read_carries.last (calls_settleFromReceipt.mono skips_of_sparesZaps) ?_ hread
          intro h r hread _
          refine ⟨hread, fun p hp => ?_⟩
          obtain rfl := Option.some.inj hp
          exact verifyPreimage_ok hverify

/-- What the route may write once it has its event. -/
theorem receiptToPublish_may {pubkey : String} {payload : PublishZapReceiptRequest}
    {zapReceipt zapRequest : NostrEvent}
    (hread : lastZapRead zap.paymentHash (h.callsOf i) = some (zap, none))
    (hnone : zap.zapEvent = none)
    (hparse : parseZapReceipt state.crates payload.zapReceipt = .ok zapReceipt)
    (hpays : ∀ p, findPreimage zapReceipt.tags = some p →
      preimageHash state.crates p = .ok zap.paymentHash) :
    (zapContract state).wp semantics ok i (.publishZapReceipt pubkey zap.paymentHash payload)
      (receiptToPublish state zap zapReceipt zapRequest)
      (fun h r => ∀ event, r = .ok event →
        MayWriteZap state (.publishZapReceipt pubkey zap.paymentHash payload) (h.callsOf i)
          { zap with zapEvent := some event.json }) h := by
  simp only [receiptToPublish, Prog.bind_eq, Prog.pure_eq]
  split
  · rename_i huser
    refine Contract.wp_ret.mpr fun event _ => ?_
    exact .forwards ⟨hread, hnone, rfl⟩ (Option.some_ne_none _) huser
  · split
    · exact Contract.wp_fail.mpr fun _ hr => by cases hr
    · refine Contract.wp_ofExcept_bind (fun _ _ hr => by cases hr) fun bolt11 hbolt11 => ?_
      have hbolt11 : findBolt11 zapReceipt.tags = some bolt11 := by
        cases hfind : findBolt11 zapReceipt.tags with
        | none =>
            rw [hfind] at hbolt11
            cases hbolt11
        | some found =>
            rw [hfind] at hbolt11
            rw [Except.ok.inj hbolt11]
      refine Contract.wp_bind.mpr (Contract.wp_call.mpr fun h₁ hrely _ =>
        ⟨mayWriteZap_skips trivial, fun ch signed s' _ _ _ => Contract.wp_ret.mpr ?_⟩)
      rw [← callsOf_rely hrely] at hread
      refine Contract.wp_ofExcept.mpr fun event hevent => ?_
      cases signed with
      | none => cases hevent
      | some signed =>
          obtain rfl := Except.ok.inj hevent
          refine .supplied (ReadEmpty.skips (c := .env _) trivial ⟨hread, hnone, rfl⟩) rfl hparse
            hbolt11 hpays signedReceipt_push rfl

theorem publishZapReceipt_may {pubkey paymentHash : String} {payload : PublishZapReceiptRequest} :
    (zapContract state).wp semantics ok i (.publishZapReceipt pubkey paymentHash payload)
      (publishZapReceipt state pubkey paymentHash payload) (fun _ _ => True) h := by
  simp only [publishZapReceipt, Prog.bind_eq, Prog.pure_eq]
  refine idle_carries.bind (calls_validate fun _ => trivial) (fun _ => trivial) trivial
    fun key h _ => ?_
  refine Contract.wp_ofExcept_bind (fun _ => trivial) fun zapReceipt hparse => ?_
  refine Contract.wp_bind.mpr (Contract.wp_mapError.mpr (Contract.wp_call.mpr fun h₁ _ _ =>
    ⟨fun _ hzap => (by cases hzap), fun ch r s' hexec _ _ => Contract.wp_ofExcept.mpr ?_⟩))
  cases r with
  | error e => exact trivial
  | ok stored =>
      refine Contract.wp_ofExcept_bind (fun _ => trivial) fun zap hzap => ?_
      obtain rfl : stored = some zap := by
        cases stored with
        | none => cases hzap
        | some stored => rw [Except.ok.inj hzap]
      obtain rfl := zap_paymentHash (read_zap hexec)
      have hread : zapRead ⟨i, .payment (.getZapByPaymentHash zap.paymentHash), .ok (some zap)⟩ =
          some (zap, none) := rfl
      refine Contract.wp_require_bind trivial fun _ => ?_
      refine Contract.wp_bind.mpr (Contract.wp_mono ?_
        (settleFromReceipt_read (lastZapRead_push hread)))
      intro h r hsettled
      cases r with
      | error e => exact trivial
      | ok _ =>
          obtain ⟨hread, hpays⟩ := hsettled rfl
          dsimp only
          cases hevent : zap.zapEvent with
          | some stored => exact Contract.wp_ret.mpr trivial
          | none =>
              refine Contract.wp_ofExcept_bind (fun _ => trivial) fun zapRequest _ => ?_
              refine Contract.wp_bind.mpr (Contract.wp_mono ?_
                (receiptToPublish_may hread hevent hparse hpays))
              intro h r hmay
              cases r with
              | error e => exact trivial
              | ok event =>
                  refine mayWriteZap_carries.bind (calls_sendToRelays.mono skips_of_notice)
                    (fun _ => trivial) (hmay event rfl) fun published h hmay => ?_
                  refine mayWriteZap_carries.bind (calls_nowMillis fun _ => trivial)
                    (fun _ => trivial)
                    hmay fun now h hmay => ?_
                  refine Contract.wp_bind.mpr (Contract.wp_mono ?_ (writeZap_may hmay.touch))
                  intro h r _
                  cases r with
                  | error e => exact trivial
                  | ok _ => exact Contract.wp_ret.mpr trivial

/-- The processor, for the rows it has read without a receipt. -/
theorem publishPending_may {invoice : Invoice} {preimage : String}
    (hread : lastZapRead zap.paymentHash (h.callsOf i) = some (zap, some invoice))
    (hnone : zap.zapEvent = none) (hpreimage : invoice.preimage = some preimage) :
    (zapContract state).wp semantics ok i q (publishPending crates zap invoice.invoice preimage)
      (fun _ _ => True) h := by
  simp only [publishPending, Prog.bind_eq]
  refine Contract.wp_ofExcept_bind (fun _ => trivial) fun zapRequest _ => ?_
  refine Contract.wp_bind.mpr (Contract.wp_call.mpr fun h₁ hrely _ =>
    ⟨mayWriteZap_skips trivial, fun ch signed s' _ _ _ => Contract.wp_ret.mpr ?_⟩)
  refine Contract.wp_ofExcept_bind (fun _ => trivial) fun event hevent => ?_
  obtain rfl : signed = some event := by
    cases signed with
    | none => cases hevent
    | some signed => rw [Except.ok.inj hevent]
  rw [← callsOf_rely hrely] at hread
  have hmay : MayWriteZap state q ((h₁.push ⟨i, .env (.signEvent NostrEvent.zapReceiptKind
      (zapReceiptTags zap zapRequest invoice.invoice preimage)), some event⟩ s').callsOf i)
      { zap with zapEvent := some event.json } :=
    .paid (ReadEmpty.skips (c := .env _) trivial ⟨hread, hnone, rfl⟩) hpreimage signedReceipt_push
      rfl
  refine Contract.wp_require_bind trivial fun _ => ?_
  refine mayWriteZap_carries.bind (calls_env trivial) (fun _ => trivial) hmay fun sent h hmay => ?_
  refine Contract.wp_require_bind trivial fun _ => ?_
  exact mayWriteZap_carries.bind (calls_nowMillis fun _ => trivial) (fun _ => trivial) hmay
    fun now h hmay => writeZap_may hmay.touch

/-- Parts that skip zaps. -/
theorem idle {p : Prog Call Reply ε α} (hp : p.Calls Call.SkipsZaps) :
    (zapContract state).wp semantics ok i q p (fun _ _ => True) h :=
  idle_carries.last hp (fun _ => trivial) trivial

theorem calls_dropPending_skips {paymentHash : String} :
    (dropPending paymentHash).Calls Call.SkipsZaps :=
  Prog.calls_bind (Prog.calls_attempt.mpr (calls_payment trivial)) fun _ => Prog.calls_ret _

theorem publishOrRetry_may {item : PendingZapReceipt} {now : Int} {invoice : Invoice}
    {preimage : String}
    (hread : lastZapRead zap.paymentHash (h.callsOf i) = some (zap, some invoice))
    (hnone : zap.zapEvent = none) (hpreimage : invoice.preimage = some preimage) :
    (zapContract state).wp semantics ok i q
      (publishOrRetry crates item now zap invoice.invoice preimage) (fun _ _ => True) h := by
  simp only [publishOrRetry, Prog.bind_eq, Prog.pure_eq]
  refine Contract.wp_bind.mpr (Contract.wp_attempt.mpr (Contract.wp_mono ?_
    (publishPending_may hread hnone hpreimage)))
  intro h r _
  cases r with
  | ok _ => exact idle calls_dropPending_skips
  | error e =>
      exact idle (Prog.calls_bind (Prog.calls_attempt.mpr (calls_payment trivial))
        fun _ => Prog.calls_ret _)

theorem processPendingZapReceipt_may {item : PendingZapReceipt} :
    (zapContract state).wp semantics ok i q (processPendingZapReceipt state item)
      (fun _ _ => True) h := by
  simp only [processPendingZapReceipt, Prog.bind_eq, Prog.pure_eq]
  split
  · exact idle calls_dropPending_skips
  · refine idle_carries.bind (calls_nowMillis fun _ => trivial) (fun _ => trivial) trivial
      fun now h _ => ?_
    split
    · exact idle calls_dropPending_skips
    · refine Contract.wp_bind.mpr (Contract.wp_attempt.mpr (Contract.wp_call.mpr fun h₁ _ _ =>
        ⟨fun _ hzap => (by cases hzap), fun ch r s' hexec _ _ => Contract.wp_ofExcept.mpr ?_⟩))
      cases r with
      | error e => exact Contract.wp_ret.mpr trivial
      | ok stored =>
          obtain ⟨stored, invoice⟩ := stored
          cases stored with
          | none => exact idle calls_dropPending_skips
          | some zap =>
              show (zapContract state).wp _ _ _ _ (if zap.zapEvent.isSome = true then _ else _) _ _
              by_cases hevent : zap.zapEvent.isSome = true
              · rw [if_pos hevent]
                exact idle calls_dropPending_skips
              · rw [if_neg hevent]
                cases invoice with
                | none => exact idle calls_dropPending_skips
                | some invoice =>
                    dsimp only
                    cases hpreimage : invoice.preimage with
                    | none => exact Contract.wp_ret.mpr trivial
                    | some preimage =>
                        have hread : zapRead ⟨i,
                            .payment (.getZapAndInvoiceByPaymentHash item.paymentHash),
                            .ok (some zap, some invoice)⟩ = some (zap, some invoice) := rfl
                        exact publishOrRetry_may (lastZapRead_push hread)
                          (Option.not_isSome_iff_eq_none.mp hevent) hpreimage

/-- One part after the other. -/
theorem then_may {p : Prog Call Reply ε α} {f : α → Prog Call Reply ε β}
    (hp : (zapContract state).wp semantics ok i q p (fun _ _ => True) h)
    (hf : ∀ a h, (zapContract state).wp semantics ok i q (f a) (fun _ _ => True) h) :
    (zapContract state).wp semantics ok i q (p.bind f) (fun _ _ => True) h := by
  refine Contract.wp_bind.mpr (Contract.wp_mono ?_ hp)
  intro h r _
  cases r with
  | ok a => exact hf a h
  | error e => exact trivial

theorem processBatch_may {items : List PendingZapReceipt} :
    (zapContract state).wp semantics ok i q (processBatch state items) (fun _ _ => True) h := by
  induction items generalizing h with
  | nil => exact Contract.wp_ret.mpr trivial
  | cons item rest ih => exact then_may processPendingZapReceipt_may fun _ _ => ih

theorem processPendingZapReceipts_may {rounds : Nat} :
    (zapContract state).wp semantics ok i q (processPendingZapReceipts state rounds)
      (fun _ _ => True) h := by
  induction rounds generalizing h with
  | zero => exact Contract.wp_ret.mpr trivial
  | succ rounds ih =>
      refine then_may (idle (Prog.calls_attempt.mpr (calls_payment trivial))) fun pending h => ?_
      split
      · exact Contract.wp_ret.mpr trivial
      · split
        · exact Contract.wp_ret.mpr trivial
        · refine then_may processBatch_may fun _ h => ?_
          split
          · exact Contract.wp_ret.mpr trivial
          · exact ih

/-- Calls that write no receipt. -/
theorem fresh_carries : (zapContract state).Carries semantics ok i q
    (fun c => ∀ zap, c = .payment (.upsertZap zap) →
      zap.zapEvent = none ∧ zap.isUserNostrKey = false) fun _ => True where
  rely := fun _ _ => trivial
  guard := fun _ hc zap hzap => .creates (hc zap hzap).1 (hc zap hzap).2
  call := fun _ _ _ _ _ => trivial

theorem callback_may {domain identifier : String} {params : LnurlPayCallbackParams} :
    (zapContract state).wp semantics ok i q
      (handleInvoiceForResolvedDomain state domain identifier params) (fun _ _ => True) h := by
  refine fresh_carries.last (calls_handleInvoiceForResolvedDomain ?_ ?_) (fun _ => trivial) trivial
  · intro c hc zap hzap
    subst hzap
    exact hc
  · exact fun _ _ _ hzap => by cases hzap

end Pieces

theorem zapWriters (state : State) (ok : History → CallEvent → Prop) :
    PaymentWriters (zapContract state) ok state where
  spares := fun _ hc zap hzap => by
    subst hzap
    exact absurd id hc
  paid := idle (calls_handleInvoicePaid.mono skips_of_sparesZaps)
  batch := idle ((calls_handleInvoicesPaid Call.IsNotice.sparesZaps (fun _ => trivial)
    fun _ _ _ => trivial).mono skips_of_sparesZaps)
  expires := idle ((calls_expireBlinkInvoice Call.IsNotice.sparesZaps trivial fun _ =>
    trivial).mono skips_of_sparesZaps)
  callback := callback_may
  publish := publishZapReceipt_may
  process := processPendingZapReceipts_may

theorem zap_outline (state : State) :
    Outline (zapContract state) semantics always (handler state) (fun _ _ _ _ => True) where
  lawful := zapContract_lawful
  post_stable := fun _ _ _ => trivial
  accept := fun _ _ => (zapWriters state always).handler

theorem zaps_initial (state : State) (clock : Clock) :
    (zapContract state).inv ⟨World.fresh clock, []⟩ :=
  ⟨fun _ => rfl, fun _ _ h => (by cases h), fun _ hev => absurd hev List.not_mem_nil⟩

end BlinkLnurl
