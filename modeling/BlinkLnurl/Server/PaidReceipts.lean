import BlinkLnurl.Server.SoundSettlement
import BlinkLnurl.Server.ZapWriters

/-!
# What receipts say

Every receipt in the store is one that the server has signed, and a preimage in
it pays the invoice of its zap (`stored_receipts_signed`). The processor builds
its receipts from the invoice row. The route takes the invoice and the preimage
from a receipt of the client, which may name another invoice and no preimage at
all; `receipt_names_payment_iff` says when what is signed names the stored
payment.
-/

namespace BlinkLnurl

open Conc Rel PaymentStore

/-! ## Tags of receipts -/

section Tags

variable {zap : Zap} {zapRequest event : NostrEvent} {bolt11 preimage : String}
  {kind : Nat} {tags : List NostrTag} {α : Type} {f : NostrTag → Option α}

theorem findBolt11_zapReceiptTags :
    findBolt11 (zapReceiptTags zap zapRequest bolt11 preimage) = some bolt11 := rfl

theorem findPreimage_zapReceiptTags :
    findPreimage (zapReceiptTags zap zapRequest bolt11 preimage) = some preimage := rfl

theorem findSome_filter_keyTags (hf : ∀ t, isKeyTag t = true → f t = none) :
    (tags.filter fun t => !isKeyTag t).findSome? f = tags.findSome? f := by
  induction tags with
  | nil => rfl
  | cons t rest ih =>
      rw [List.findSome?_cons]
      cases hkey : isKeyTag t with
      | true =>
          rw [List.filter_cons_of_neg (by rw [hkey]; exact Bool.false_ne_true), hf t hkey]
          exact ih
      | false =>
          rw [List.filter_cons_of_pos (by rw [hkey]; rfl), List.findSome?_cons, ih]

theorem isKeyTag_iff {t : NostrTag} :
    isKeyTag t = true ↔ ∃ key, t.standardized = some (.publicKey key false) := by
  unfold isKeyTag
  constructor
  · intro h
    split at h
    · rename_i key hstandardized
      exact ⟨key, hstandardized⟩
    · cases h
  · rintro ⟨key, hstandardized⟩
    rw [hstandardized]

/-- What the signer may drop is neither the invoice nor the preimage. -/
theorem find_of_signsEvent (h : signsEvent kind tags event = true) :
    findBolt11 event.tags = findBolt11 tags ∧ findPreimage event.tags = findPreimage tags := by
  obtain ⟨_, hsame⟩ := (Bool.and_eq_true _ _).mp h
  have hsame := of_decide_eq_true hsame
  constructor
  · unfold findBolt11
    rw [← findSome_filter_keyTags, hsame, findSome_filter_keyTags] <;>
    · intro t hkey
      obtain ⟨key, hstandardized⟩ := isKeyTag_iff.mp hkey
      rw [hstandardized]
  · unfold findPreimage
    rw [← findSome_filter_keyTags, hsame, findSome_filter_keyTags] <;>
    · intro t hkey
      obtain ⟨key, hstandardized⟩ := isKeyTag_iff.mp hkey
      rw [hstandardized]

end Tags

/-- The server has signed the event as a receipt. -/
def ServerSigned (calls : List CallEvent) (event : NostrEvent) : Prop :=
  ∃ tags, SignedReceipt calls tags event

/-- The tags name the stored invoice and a preimage of its payment hash. -/
def NamesPayment (crates : Crates) (w : World) (k : String) (tags : List NostrTag) : Prop :=
  ∃ row p, w.payments.invoiceOf k = some row ∧ findBolt11 tags = some row.invoice ∧
    findPreimage tags = some p ∧ preimageHash crates p = .ok k

/-- What a publisher has read of the payment: the invoice row, which still has that
invoice, or a receipt of the client that names the stored invoice and a
preimage. -/
inductive DescribesPayment (state : State) (w : World) (q : Request) (calls : List CallEvent)
    (k : String) : Prop
  | stored {zap invoice row} : lastZapRead k calls = some (zap, some invoice) →
      w.payments.invoiceOf k = some row → row.invoice = invoice.invoice →
      DescribesPayment state w q calls k
  | supplied {zap pubkey payload receipt row} : lastZapRead k calls = some (zap, none) →
      q = .publishZapReceipt pubkey k payload →
      parseZapReceipt state.crates payload.zapReceipt = .ok receipt →
      (findPreimage receipt.tags).isSome →
      w.payments.invoiceOf k = some row → findBolt11 receipt.tags = some row.invoice →
      DescribesPayment state w q calls k

section Signed

variable {state : State} {clock : Clock} {cfg : Server} {i : Nat} {q : Request} {zap : Zap}
  {k json : String} {row : Zap} {invoice : Invoice}

/-- A preimage that a thread has read along with the zap pays the invoice. -/
theorem preimage_of_read
    (hreach : Reachable semantics always (handler state) (World.fresh clock) cfg)
    (hread : lastZapRead k (cfg.hist.callsOf i) = some (row, some invoice)) {p : String}
    (hp : invoice.preimage = some p) : preimageHash state.crates p = .ok k := by
  obtain ⟨earlier, ev, later, hcalls, hev, _⟩ := exists_of_lastWrite hread (Option.some_ne_none _)
  obtain ⟨hrow, hk⟩ := read_of_readsZap hev
  have hmem : ev ∈ cfg.hist.callsOf i := by
    rw [hcalls]
    exact List.mem_append_right _ List.mem_cons_self
  obtain ⟨mid, mid', took⟩ := hreach.took (Hist.mem_callsOf.mp hmem).1
  obtain ⟨j, c, r⟩ := ev
  obtain ⟨_, _, ch, _, hexec, _⟩ := took.call
  have hstored := (stored_of_zapRead hexec hrow).2 invoice rfl
  have hsound := (Reachable.sound (payment_outline state) (payments_initial False clock)
    took.before).inv.1 _ invoice hstored
  rw [hsound.preimage p hp, paymentHash_of_get hstored, ← hk]

theorem tags_of_signed
    (hreach : Reachable semantics always (handler state) (World.fresh clock) cfg)
    {tags : List NostrTag} {event : NostrEvent}
    (h : SignedReceipt (cfg.hist.callsOf i) tags event) :
    findBolt11 event.tags = findBolt11 tags ∧ findPreimage event.tags = findPreimage tags := by
  obtain ⟨j, hev⟩ := h
  obtain ⟨mid, mid', took⟩ := hreach.took (Hist.mem_callsOf.mp hev).1
  obtain ⟨_, _, ch, _, hexec, _⟩ := took.call
  obtain ⟨_, hanswer⟩ := exec_env hexec
  have hanswer : (if ch.all (signsEvent NostrEvent.zapReceiptKind tags) then some ch else none) =
      some (some event) := hanswer
  split at hanswer
  · rename_i hsigns
    obtain rfl := Option.some.inj hanswer
    exact find_of_signsEvent hsigns
  · cases hanswer

/-- What a thread knows that writes a receipt: the server has signed it, its preimage
pays the invoice, and it names the stored payment exactly if what the thread has
read does. -/
structure PublishesSigned (state : State) (w : World) (q : Request) (calls : List CallEvent)
    (k : String)
    (event : NostrEvent) : Prop where
  signed : ServerSigned calls event
  pays : ∀ p, findPreimage event.tags = some p → preimageHash state.crates p = .ok k
  names : NamesPayment state.crates w k event.tags ↔ DescribesPayment state w q calls k

/-- Every receipt is signed by the server before it is written. -/
theorem publishesSigned_of_may (hcrates : state.crates.ZapReceipts)
    (hreach : Reachable semantics always (handler state) (World.fresh clock) cfg)
    (hmay : MayWriteZap state q (cfg.hist.callsOf i) zap) (hevent : zap.zapEvent = some json) :
    ∃ event, event.json = json ∧
      PublishesSigned state cfg.hist.state q (cfg.hist.callsOf i) zap.paymentHash event := by
  have told := (Reachable.sound (zap_outline state) (zaps_initial state clock) hreach).inv
  have hserver := told.serverWrites hmay
  cases hmay with
  | creates hnone =>
      rw [hnone] at hevent
      cases hevent
  | forwards _ _ huser =>
      rw [hserver] at huser
      cases huser
  | @supplied row pubkey payload receipt zapRequest bolt11 event hread hq hparse hbolt11 hpays
      hsigned hwritten =>
      obtain rfl : event.json = json := Option.some.inj (hwritten.symm.trans hevent)
      obtain ⟨hinvoice, hpreimage⟩ := tags_of_signed hreach hsigned
      rw [hcrates.bolt11, ← hbolt11] at hinvoice
      rw [hcrates.preimage] at hpreimage
      refine ⟨event, rfl, ⟨_, hsigned⟩, fun p hp => hpays p (hpreimage ▸ hp), ?_⟩
      constructor
      · rintro ⟨stored, p, hstored, hnames, hp, _⟩
        refine .supplied hread.read hq hparse ?_ hstored (hinvoice ▸ hnames)
        rw [← hpreimage, hp]
        rfl
      · intro hdescribes
        cases hdescribes with
        | stored hother =>
            have hread := hread.read.symm.trans hother
            cases hread
        | @supplied _ _ payload' receipt' stored _ hq' hparse' hsome hstored hnames =>
            obtain ⟨_, _, rfl⟩ := Request.publishZapReceipt.inj (hq.symm.trans hq')
            obtain rfl : receipt = receipt' := Except.ok.inj (hparse.symm.trans hparse')
            obtain ⟨p, hp⟩ := Option.isSome_iff_exists.mp hsome
            exact ⟨stored, p, hstored, hinvoice.trans hnames, hpreimage.trans hp, hpays p hp⟩
  | @paid row invoice preimage zapRequest event hread hstoredPreimage hsigned hwritten =>
      obtain rfl : event.json = json := Option.some.inj (hwritten.symm.trans hevent)
      obtain ⟨hinvoice, hpreimage⟩ := tags_of_signed hreach hsigned
      rw [findBolt11_zapReceiptTags] at hinvoice
      rw [findPreimage_zapReceiptTags] at hpreimage
      have hpays := preimage_of_read hreach hread.read hstoredPreimage
      refine ⟨event, rfl, ⟨_, hsigned⟩, fun p hp => ?_, ?_⟩
      · obtain rfl := Option.some.inj (hpreimage.symm.trans hp)
        exact hpays
      · constructor
        · rintro ⟨stored, p, hstored, hnames, _⟩
          exact .stored hread.read hstored (Option.some.inj (hinvoice.symm.trans hnames)).symm
        · intro hdescribes
          cases hdescribes with
          | supplied hother =>
              have hread := hread.read.symm.trans hother
              cases hread
          | @stored _ invoice' stored hother hstored hsame =>
              have hread := hread.read.symm.trans hother
              cases hread
              exact ⟨stored, preimage, hstored, by rw [hinvoice, hsame], hpreimage, hpays⟩

/-- On the way to `cfg` the receipt `json` is stored along with the zap row, in the step
after `mid` and by a thread that serves `q`. -/
structure StoresReceipt (state : State) (clock : Clock) (cfg mid : Server) (ev : CallEvent)
    (q : Request) (zap : Zap) (json : String) : Prop where
  took : ∃ mid', Took semantics always (handler state) (World.fresh clock) cfg ev mid mid'
  serves : mid.request ev.thread = some q
  row : zapRow ev = some zap
  receipt : zap.zapEvent = some json

variable {mid : Server} {ev : CallEvent}

theorem StoresReceipt.may (h : StoresReceipt state clock cfg mid ev q zap json) :
    Reachable semantics always (handler state) (World.fresh clock) mid ∧
      MayWriteZap state q (mid.hist.callsOf ev.thread) zap := by
  obtain ⟨⟨mid', took⟩, hserves, hrow, _⟩ := h
  obtain ⟨i, c, r⟩ := ev
  obtain ⟨q', _, _, hth, _⟩ := took.call
  have hguard := (Reachable.sound (zap_outline state) (zaps_initial state clock)
    took.before).guard zapContract_lawful.toKeeps hth
  have hserves : mid.threads[i]?.map Thread.request = some q := hserves
  rw [hth] at hserves
  obtain rfl : q' = q := Option.some.inj hserves
  exact ⟨took.before, hguard zap (call_of_zapRow hrow)⟩

/-- A receipt in the store was stored by somebody. -/
theorem exists_storesReceipt
    (hreach : Reachable semantics always (handler state) (World.fresh clock) cfg)
    (hstored : cfg.hist.state.receiptOf k = some json) :
    ∃ mid ev q zap, StoresReceipt state clock cfg mid ev q zap json ∧ zap.paymentHash = k := by
  have told := (Reachable.sound (zap_outline state) (zaps_initial state clock) hreach).inv
  have hlast : lastReceipt k cfg.hist.log = some json := by
    rw [← told.written]
    exact hstored
  obtain ⟨before, ev, since, hlog, hwrites, _⟩ := exists_of_lastWrite hlast (Option.some_ne_none _)
  obtain ⟨zap, hrow, hkey⟩ := Option.bind_eq_some_iff.mp hwrites
  split at hkey
  · rename_i hk
    obtain ⟨mid, mid', took, _⟩ := hreach.took_at hlog
    obtain ⟨i, c, r⟩ := ev
    obtain ⟨q, _, _, hth, _⟩ := took.call
    refine ⟨mid, ⟨i, c, r⟩, q, zap, ⟨⟨mid', took⟩, ?_, hrow, Option.some.inj hkey⟩, hk⟩
    show mid.threads[i]?.map Thread.request = some q
    rw [hth]
    rfl
  · cases hkey

/-- Every receipt in the store was signed by the server in this run, never by a
client, and a preimage it names hashes to the payment hash of its zap. -/
theorem stored_receipts_signed (hcrates : state.crates.ZapReceipts)
    (hreach : Reachable semantics always (handler state) (World.fresh clock) cfg)
    (hstored : cfg.hist.state.receiptOf k = some json) :
    ∃ event, ServerSigned cfg.hist.log event ∧ event.json = json ∧
      ∀ p, findPreimage event.tags = some p → preimageHash state.crates p = .ok k := by
  obtain ⟨mid, ev, q, zap, stores, rfl⟩ := exists_storesReceipt hreach hstored
  obtain ⟨hmid, hmay⟩ := stores.may
  obtain ⟨event, hjson, hsigned⟩ := publishesSigned_of_may hcrates hmid hmay stores.receipt
  refine ⟨event, ?_, hjson, hsigned.pays⟩
  obtain ⟨tags, j, hcall⟩ := hsigned.signed
  obtain ⟨mid', took⟩ := stores.took
  have hprefix : mid.hist.log <+: cfg.hist.log := by
    refine List.IsPrefix.trans ?_ took.after.log_prefix
    rw [took.log]
    exact List.prefix_append _ _
  exact ⟨tags, j, hprefix.subset (Hist.mem_callsOf.mp hcall).1⟩

/-- Receipts are for settled payments: each one in the store was stored at some point,
and whenever one is stored, the server has signed it, and it names the stored invoice
and a preimage of the payment hash if and only if its thread has read the invoice that
is stored, or serves a client whose receipt names the stored invoice and a preimage. -/
theorem receipts_for_settled_payments_iff (hcrates : state.crates.ZapReceipts)
    (hreach : Reachable semantics always (handler state) (World.fresh clock) cfg) :
    (∀ k json, cfg.hist.state.receiptOf k = some json →
      ∃ mid ev q zap, StoresReceipt state clock cfg mid ev q zap json ∧ zap.paymentHash = k) ∧
    ∀ mid ev q zap json, StoresReceipt state clock cfg mid ev q zap json →
      ∃ event, ServerSigned (mid.hist.callsOf ev.thread) event ∧ event.json = json ∧
        (NamesPayment state.crates mid.hist.state zap.paymentHash event.tags ↔
          DescribesPayment state mid.hist.state q (mid.hist.callsOf ev.thread)
            zap.paymentHash) := by
  refine ⟨fun k json hstored => exists_storesReceipt hreach hstored, ?_⟩
  intro mid ev q zap json stores
  obtain ⟨hmid, hmay⟩ := stores.may
  obtain ⟨event, hjson, hsigned⟩ := publishesSigned_of_may hcrates hmid hmay stores.receipt
  exact ⟨event, hsigned.signed, hjson, hsigned.names⟩

/-- Whenever a receipt is about to be written, the server has signed it, and it names
the stored invoice and a preimage of the payment hash if and only if the thread
has read the invoice that is stored, or a receipt of the client that names the
stored invoice and a preimage. -/
theorem receipt_names_payment_iff (hcrates : state.crates.ZapReceipts)
    (hreach : Reachable semantics always (handler state) (World.fresh clock) cfg)
    {next : Reply (.payment (.upsertZap zap)) → Handler Response}
    (hth : cfg.threads[i]? = some ⟨q, .call (.payment (.upsertZap zap)) next⟩)
    (hevent : zap.zapEvent = some json) :
    ∃ event, ServerSigned (cfg.hist.callsOf i) event ∧ event.json = json ∧
      (NamesPayment state.crates cfg.hist.state zap.paymentHash event.tags ↔
        DescribesPayment state cfg.hist.state q (cfg.hist.callsOf i) zap.paymentHash) := by
  have hguard := (Reachable.sound (zap_outline state) (zaps_initial state clock) hreach).guard
    zapContract_lawful.toKeeps hth
  obtain ⟨event, hjson, hsigned⟩ := publishesSigned_of_may hcrates hreach (hguard zap rfl) hevent
  exact ⟨event, hsigned.signed, hjson, hsigned.names⟩

end Signed

/-! ## Examples -/

section Example

open Schedule

/-- The zap row that a thread writes in its next call. -/
def nextZap (cfg : Server) (i : Nat) : Option Zap :=
  cfg.threads[i]?.bind fun th => match th.prog with
    | .call (.payment (.upsertZap zap)) _ => some zap
    | _ => none

theorem thread_of_nextZap {cfg : Server} {i : Nat} {zap : Zap} (h : nextZap cfg i = some zap) :
    ∃ q next, cfg.threads[i]? = some ⟨q, .call (.payment (.upsertZap zap)) next⟩ := by
  obtain ⟨th, hth, hzap⟩ := Option.bind_eq_some_iff.mp h
  obtain ⟨q, prog⟩ := th
  split at hzap
  · rename_i next hprog
    obtain rfl := Option.some.inj hzap
    obtain rfl : prog = _ := hprog
    exact ⟨q, _, hth⟩
  · cases hzap

theorem zapReceipts_deployment (d : Deployment) : d.crates.ZapReceipts where
  bolt11 := fun _ _ _ => rfl
  preimage := fun b p request => by
    have hkeys : findPreimage (request.tags.filter isKeyTag ++ [senderTag request.pubkey]) =
        none := by
      unfold findPreimage
      rw [List.findSome?_eq_none_iff]
      intro t ht
      rcases List.mem_append.mp ht with ht | ht
      · obtain ⟨key, hstandardized⟩ := isKeyTag_iff.mp (List.mem_filter.mp ht).2
        rw [hstandardized]
      · rw [List.mem_singleton.mp ht]
        rfl
    cases p with
    | some p => rfl
    | none => exact hkeys

/-- The payee publishes its receipt. -/
def published : Schedule :=
  zapped ++ serve (publishes "receipt") ++ calls 2 14 { eventJson := "r" }

theorem published_receipt_signed :
    ∃ (cfg : Server) (event : NostrEvent),
      Reachable semantics always (handler zapServer) (World.fresh ⟨1000000, by decide⟩) cfg ∧
      cfg.hist.state.receiptOf "aa" = some "r" ∧ ServerSigned cfg.hist.log event ∧
      event.json = "r" ∧
      ∀ p, findPreimage event.tags = some p → preimageHash zapServer.crates p = .ok "aa" := by
  have hrun : (zapRun always published).any (fun cfg =>
      cfg.hist.state.receiptOf "aa" = some "r") = true := by decide +kernel
  obtain ⟨cfg, hreach, _, hstored⟩ := reachable_of_replay hrun
  have hstored := of_decide_eq_true hstored
  obtain ⟨event, hsigned, hjson, hpays⟩ :=
    stored_receipts_signed (zapReceipts_deployment zapSigned) hreach hstored
  exact ⟨cfg, event, hreach, hstored, hsigned, hjson, hpays⟩

/-- The processor is about to store its receipt. -/
def processed : Schedule :=
  zapped ++ serve (publishes "receipt") ++ calls 2 13 { eventJson := "r" } ++
    serve (.processPendingZapReceipts 1) ++ calls 3 6 { eventJson := "w" }

theorem processed_receipt_names_payment :
    ∃ (cfg : Server) (event : NostrEvent),
      Reachable semantics always (handler zapServer) (World.fresh ⟨1000000, by decide⟩) cfg ∧
      cfg.request 3 = some (.processPendingZapReceipts 1) ∧ event.json = "w" ∧
      NamesPayment zapServer.crates cfg.hist.state "aa" event.tags := by
  have hrun : (zapRun always processed).any (fun cfg =>
      decide ((nextZap cfg 3).map (fun zap => (zap.paymentHash, zap.zapEvent)) =
        some ("aa", some "w") ∧
        ((lastZapRead "aa" (cfg.hist.callsOf 3)).bind Prod.snd).isSome = true ∧
        (lastZapRead "aa" (cfg.hist.callsOf 3)).bind Prod.snd =
          cfg.hist.state.payments.invoiceOf "aa")) = true := by decide +kernel
  obtain ⟨cfg, hreach, hserved, hcfg⟩ := reachable_of_replay hrun
  obtain ⟨hnext, hsome, hsame⟩ := of_decide_eq_true hcfg
  obtain ⟨zap, hnext, hzap⟩ := Option.map_eq_some_iff.mp hnext
  obtain ⟨hk, hevent⟩ := Prod.mk.inj hzap
  obtain ⟨q, next, hth⟩ := thread_of_nextZap hnext
  obtain ⟨event, _, hjson, hnames⟩ := receipt_names_payment_iff (zapReceipts_deployment zapSigned)
    hreach hth hevent
  obtain ⟨invoice, hinvoice⟩ := Option.isSome_iff_exists.mp hsome
  obtain ⟨⟨row, _⟩, hread, rfl⟩ := Option.bind_eq_some_iff.mp hinvoice
  refine ⟨cfg, event, hreach, hserved 3, hjson, ?_⟩
  rw [← hk]
  refine hnames.mpr (.stored (by rw [hk]; exact hread) ?_ rfl)
  rw [hk, ← hsame, hread]
  rfl

/-- The receipt of the processor, in the step that stores it. -/
theorem processed_receipt_stored :
    ∃ (cfg mid : Server) (ev : CallEvent) (q : Request) (zap : Zap) (event : NostrEvent),
      StoresReceipt zapServer ⟨1000000, by decide⟩ cfg mid ev q zap "w" ∧
      cfg.hist.state.receiptOf "aa" = some "w" ∧ event.json = "w" ∧
      NamesPayment zapServer.crates mid.hist.state "aa" event.tags := by
  have hbefore : (zapRun always processed).any (fun mid =>
      decide (((lastZapRead "aa" (mid.hist.callsOf 3)).bind Prod.snd).isSome = true ∧
        (lastZapRead "aa" (mid.hist.callsOf 3)).bind Prod.snd =
          mid.hist.state.payments.invoiceOf "aa")) = true := by decide +kernel
  have hafter : (zapRun always (processed ++ [.call 3 (Answers.choice {})])).any (fun cfg =>
      decide (cfg.hist.state.receiptOf "aa" = some "w" ∧
        (cfg.hist.log.getLast?.bind zapRow).map (fun zap => (zap.paymentHash, zap.zapEvent)) =
          some ("aa", some "w"))) = true := by decide +kernel
  obtain ⟨mid, cfg, ev, took, hthread, hserved, hmid, hcfg⟩ := took_of_replay hbefore hafter
  obtain ⟨hsome, hsame⟩ := of_decide_eq_true hmid
  obtain ⟨hstored, hlast⟩ := of_decide_eq_true hcfg
  rw [took.log, List.getLast?_concat, Option.bind_some] at hlast
  obtain ⟨zap, hrow, hzap⟩ := Option.map_eq_some_iff.mp hlast
  obtain ⟨hk, hreceipt⟩ := Prod.mk.inj hzap
  have stores : StoresReceipt zapServer ⟨1000000, by decide⟩ cfg mid ev
      (.processPendingZapReceipts 1) zap "w" :=
    ⟨⟨cfg, took⟩, by rw [hthread]; exact hserved 3, hrow, hreceipt⟩
  obtain ⟨event, _, hjson, hnames⟩ := (receipts_for_settled_payments_iff
    (zapReceipts_deployment zapSigned) (took.before.tail took.step)).2 mid ev _ zap "w" stores
  obtain ⟨invoice, hinvoice⟩ := Option.isSome_iff_exists.mp hsome
  obtain ⟨⟨row, _⟩, hread, rfl⟩ := Option.bind_eq_some_iff.mp hinvoice
  refine ⟨cfg, mid, ev, _, zap, event, stores, hstored, hjson, ?_⟩
  rw [← hk]
  refine hnames.mpr (.stored (by rw [hk, hthread]; exact hread) ?_ rfl)
  rw [hk, ← hsame, hread]
  rfl

/-- The events that the server has signed as receipts. -/
def signedReceipts (log : List CallEvent) : List NostrEvent :=
  log.filterMap fun
    | ⟨_, .env (.signEvent _ _), answer⟩ => answer
    | _ => none

theorem mem_signedReceipts {log : List CallEvent} {event : NostrEvent}
    (h : ServerSigned log event) : event ∈ signedReceipts log := by
  obtain ⟨tags, i, hev⟩ := h
  exact List.mem_filterMap.mpr ⟨_, hev, rfl⟩

/-- The client leaves the preimage out, and what the signer answers is stored for an
invoice that was not paid. Nothing that the server has signed names a preimage. -/
theorem unpaid_receipt_stored :
    ∃ cfg : Server,
      Reachable semantics always (handler zapServer) (World.fresh ⟨1000000, by decide⟩) cfg ∧
      cfg.request 2 = some (publishes "unpaid") ∧
      (cfg.hist.state.payments.invoiceOf "aa").map Invoice.preimage = some none ∧
      cfg.hist.state.receiptOf "aa" = some "r" ∧
      ∀ event, ServerSigned cfg.hist.log event →
        ¬ NamesPayment zapServer.crates cfg.hist.state "aa" event.tags := by
  have hrun : (zapRun always (zapped ++ serve (publishes "unpaid") ++
      calls 2 6 { eventJson := "r" })).any (fun cfg =>
        decide ((cfg.hist.state.payments.invoiceOf "aa").map Invoice.preimage = some none ∧
          cfg.hist.state.receiptOf "aa" = some "r" ∧
          ∀ event ∈ signedReceipts cfg.hist.log, findPreimage event.tags = none)) = true := by
    decide +kernel
  obtain ⟨cfg, hreach, hserved, hcfg⟩ := reachable_of_replay hrun
  obtain ⟨hunpaid, hstored, hnone⟩ := of_decide_eq_true hcfg
  refine ⟨cfg, hreach, hserved 2, hunpaid, hstored, fun event hsigned hnames => ?_⟩
  obtain ⟨_, p, _, _, hp, _⟩ := hnames
  rw [hnone event (mem_signedReceipts hsigned)] at hp
  cases hp

end Example

end BlinkLnurl
