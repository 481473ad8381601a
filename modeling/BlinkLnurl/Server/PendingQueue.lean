import BlinkLnurl.Lib.LastWrite
import BlinkLnurl.Repository.PendingReceipts
import BlinkLnurl.Server.ReceiptQueue
import BlinkLnurl.Server.ZapWriters

/-!
# How the processor uses the receipt queue

The processor claims entries, looks at each, and drops it or puts it off. What it
knows of an entry is what the claim has answered (`held`) and what it has seen
since (`sinceClaim`); others may meanwhile claim the entry again once the lease
is over, drop it or queue it anew. The contract says what the processor may do to
an entry, and how the retry times grow with the retry count.
-/

namespace BlinkLnurl

open Conc Rel PaymentStore

/-! ## Calls on the queue -/

/-- The entries that a claim has answered with. -/
def claims : CallEvent → Option (List PendingZapReceipt)
  | ⟨_, .payment (.takePendingZapReceipts _), .ok items⟩ => some items
  | _ => none

/-- The entry under a payment hash that a claim has answered with. -/
def claimOf (k : String) (ev : CallEvent) : Option PendingZapReceipt :=
  (claims ev).bind (takenOf k)

/-- What a call does to the queue entry of the payment hash `k`. -/
inductive PendingChange (now : Int) (k : String) (old : Option PendingZapReceiptRow) :
    CallEvent → Option PendingZapReceiptRow → Prop
  | keeps {ev} : claimOf k ev = none → PendingChange now k old ev old
  | queues {ev pending} : old = none → pending.paymentHash = k →
      (ev.call = .payment (.insertPendingZapReceipt pending) ∨
        ∃ batch, ev.call = .payment (.insertPendingZapReceiptBatch batch) ∧ pending ∈ batch) →
      storeFailed ev = false → PendingChange now k old ev (some ⟨pending, none⟩)
  | takes {ev row} : old = some row → mayBeClaimed now row → claimOf k ev = some row.entry →
      PendingChange now k old ev (some { row with claimedAt := some now })
  | retries {i row retryCount nextRetryAt} : old = some row →
      PendingChange now k old
        ⟨i, .payment (.updatePendingZapReceiptRetry k retryCount nextRetryAt), .ok ()⟩
        (some ⟨{ row.entry with retryCount, nextRetryAt }, none⟩)
  | drops {i} : PendingChange now k old ⟨i, .payment (.deletePendingZapReceipt k), .ok ()⟩ none

def World.pendingOf (w : World) (k : String) : Option PendingZapReceiptRow := w.payments.pendingOf k

theorem PendingChange.of_same {now : Int} {k : String} {old new : Option PendingZapReceiptRow}
    {ev : CallEvent} (hclaim : claimOf k ev = none) (hsame : new = old) :
    PendingChange now k old ev new := by
  rw [hsame]
  exact .keeps hclaim

theorem PaymentOp.run_pending {now : Int} {identifiers : Table AccountIdentifier}
    {order : PaymentStore.RowOrder}
    {s : PaymentStore} {op : PaymentOp} (i : Nat) (k : String) :
    PendingChange now k (s.pendingOf k) ⟨i, .payment op, .ok (op.run now identifiers order s).1⟩
      ((op.run now identifiers order s).2.pendingOf k) := by
  cases op with
  | insertPendingZapReceipt pending =>
      show PendingChange now k _ _ ((s.insertPendingZapReceipt pending).pendingOf k)
      rw [pendingOf_insert]
      by_cases hk : k = pending.paymentHash
      · rw [if_pos hk]
        cases s.pendingOf k with
        | some row => exact .keeps rfl
        | none => exact .queues rfl hk.symm (Or.inl rfl) rfl
      · rw [if_neg hk]
        exact .keeps rfl
  | insertPendingZapReceiptBatch batch =>
      rcases @pendingOf_insertBatch s k batch with hsame | ⟨hnone, pending, hmem, hk, hrow⟩
      · exact .of_same rfl hsame
      · show PendingChange now k _ _ ((s.insertPendingZapReceiptBatch batch).pendingOf k)
        rw [hrow]
        exact .queues hnone hk (Or.inr ⟨batch, rfl, hmem⟩) rfl
  | takePendingZapReceipts limit =>
      rcases @pendingOf_take s k now limit order with
        ⟨hnone, hsame⟩ | ⟨row, hold, hmay, htaken, hrow⟩
      · exact .of_same hnone hsame
      · show PendingChange now k _ _ ((s.takePendingZapReceipts now limit order).2.pendingOf k)
        rw [hrow]
        exact .takes hold hmay htaken
  | updatePendingZapReceiptRetry paymentHash retryCount nextRetryAt =>
      show PendingChange now k _ _
        ((s.updatePendingZapReceiptRetry paymentHash retryCount nextRetryAt).pendingOf k)
      rw [pendingOf_retry]
      by_cases hk : k = paymentHash
      · subst hk
        rw [if_pos rfl]
        cases hold : s.pendingOf k with
        | none => exact .keeps rfl
        | some row => exact .retries rfl
      · rw [if_neg hk]
        exact .keeps rfl
  | deletePendingZapReceipt paymentHash =>
      show PendingChange now k _ _ ((s.deletePendingZapReceipt paymentHash).pendingOf k)
      rw [pendingOf_delete]
      by_cases hk : k = paymentHash
      · subst hk
        rw [if_pos rfl]
        exact .drops
      · rw [if_neg hk]
        exact .keeps rfl
  | _ => exact .keeps rfl

theorem exec_pending {w w' : World} {i : Nat} {c : Call} {ch : Choice c} {r : Reply c}
    (h : exec c ch w = some (r, w')) (k : String) :
    PendingChange w.clock.millis k (w.pendingOf k) ⟨i, c, r⟩ (w'.pendingOf k) := by
  cases c with
  | account op =>
      refine .of_same rfl ?_
      rcases exec_payments h with hsame | ⟨_, hop⟩
      · rw [World.pendingOf, hsame, World.pendingOf]
      · cases hop
  | env op => exact .of_same rfl (by rw [(exec_env h).1])
  | payment op =>
      rcases execPayment_cases (exec_payment h) with ⟨rfl, e, rfl⟩ | ⟨out, rfl, rfl, rfl⟩
      · exact .keeps (by cases op <;> rfl)
      · exact PaymentOp.run_pending i k

/-! ## Retry times -/

/-- The delays before the first `n` retries. -/
def retrySchedule : Nat → Int
  | 0 => 0
  | n + 1 => retrySchedule n + nextRetryDelay (n + 1 : Nat)

/-- The entry has waited for all its retries, the last one from within the time
that the processor retries for. -/
structure Paced (item : PendingZapReceipt) : Prop where
  count : 0 ≤ item.retryCount
  waited : item.createdAt + retrySchedule item.retryCount.toNat ≤ item.nextRetryAt
  recent : item.nextRetryAt ≤ item.createdAt + maxRetryDurationMs + nextRetryDelay item.retryCount

/-- An entry as it is queued. -/
structure IsFresh (pending : PendingZapReceipt) : Prop where
  count : pending.retryCount = 0
  due : pending.nextRetryAt = pending.createdAt

theorem nextRetryDelay_nonneg (n : Int) : 0 ≤ nextRetryDelay n := by
  have hpow : (0 : Int) ≤ 3 ^ n.toNat := Int.pow_nonneg (by decide)
  exact Int.ediv_nonneg (Int.mul_nonneg (by decide) hpow) (Int.pow_nonneg (by decide))

theorem retrySchedule_succ {n : Int} (hn : 0 ≤ n) :
    retrySchedule (n + 1).toNat = retrySchedule n.toNat + nextRetryDelay (n + 1) := by
  obtain ⟨m, rfl⟩ := Int.eq_ofNat_of_zero_le hn
  rfl

theorem retrySchedule_mono {m n : Nat} (h : m ≤ n) : retrySchedule m ≤ retrySchedule n := by
  induction h with
  | refl => exact le_refl _
  | @step n _ ih =>
      have hdelay := nextRetryDelay_nonneg ((n + 1 : Nat) : Int)
      have hsucc : retrySchedule n.succ = retrySchedule n + nextRetryDelay (n + 1 : Nat) := rfl
      omega

theorem IsFresh.paced {pending : PendingZapReceipt} (h : IsFresh pending) : Paced pending := by
  refine ⟨le_of_eq h.count.symm, ?_, ?_⟩
  · rw [h.count, h.due]
    exact le_of_eq (Int.add_zero _)
  · have hdelay := nextRetryDelay_nonneg pending.retryCount
    have hdue := h.due
    unfold maxRetryDurationMs
    omega

/-- An entry is put off when it is due, and not too old. -/
theorem Paced.putOff {item : PendingZapReceipt} {read : Int} (h : Paced item)
    (hdue : item.nextRetryAt ≤ read) (hage : read - item.createdAt ≤ maxRetryDurationMs) :
    Paced { item with
      retryCount := item.retryCount + 1
      nextRetryAt := read + nextRetryDelay (item.retryCount + 1) } := by
  have hcount := h.count
  have hwaited := h.waited
  refine ⟨?_, ?_, ?_⟩
  · show 0 ≤ item.retryCount + 1
    omega
  · show item.createdAt + retrySchedule (item.retryCount + 1).toNat ≤
      read + nextRetryDelay (item.retryCount + 1)
    rw [retrySchedule_succ hcount]
    omega
  · show read + nextRetryDelay (item.retryCount + 1) ≤
      item.createdAt + maxRetryDurationMs + nextRetryDelay (item.retryCount + 1)
    omega

/-- How often an entry is put off. -/
theorem Paced.bounded {item : PendingZapReceipt} (h : Paced item) : item.retryCount ≤ 24 := by
  by_contra hmore
  have hsucc := @retrySchedule_succ (item.retryCount - 1) (by omega)
  have hmono := @retrySchedule_mono 24 (item.retryCount - 1).toNat (by omega)
  have htooLong : maxRetryDurationMs < retrySchedule 24 := by decide
  have hwaited := h.waited
  have hrecent := h.recent
  rw [Int.sub_add_cancel] at hsucc
  omega

/-! ## What the processor knows -/

/-- The entries that a thread has claimed last. -/
def held (calls : List CallEvent) : List PendingZapReceipt := lastWrite claims [] calls

/-- What a thread has done since. -/
def sinceClaim (calls : List CallEvent) : List CallEvent :=
  sinceLast (fun ev => (claims ev).isSome) calls

/-- Why the processor is done with an entry: it cannot sign, the entry is too old, or
what it has seen since the claim shows that there is nothing to publish or that
the receipt is stored. -/
inductive DropReason (state : State) (item : PendingZapReceipt) (seen : List CallEvent) : Prop
  | noKeys : state.nostrKeys = none → DropReason state item seen
  | tooOld {i now} : (⟨i, .env .nowMillis, now⟩ : CallEvent) ∈ seen →
      now - item.createdAt > maxRetryDurationMs → DropReason state item seen
  | noZap {i invoice} : (⟨i, .payment (.getZapAndInvoiceByPaymentHash item.paymentHash),
      .ok (none, invoice)⟩ : CallEvent) ∈ seen → DropReason state item seen
  | hasReceipt {i zap invoice} : (⟨i, .payment (.getZapAndInvoiceByPaymentHash item.paymentHash),
      .ok (some zap, invoice)⟩ : CallEvent) ∈ seen → zap.zapEvent.isSome = true →
      DropReason state item seen
  | noInvoice {i zap} : (⟨i, .payment (.getZapAndInvoiceByPaymentHash item.paymentHash),
      .ok (some zap, none)⟩ : CallEvent) ∈ seen → DropReason state item seen
  | published {i zap} : (⟨i, .payment (.upsertZap zap), .ok ()⟩ : CallEvent) ∈ seen →
      zap.paymentHash = item.paymentHash → zap.zapEvent.isSome = true → DropReason state item seen

def MayDrop (state : State) (calls : List CallEvent) (k : String) : Prop :=
  ∃ item ∈ held calls, item.paymentHash = k ∧ DropReason state item (sinceClaim calls)

/-- An entry is put off from a time that was read since the claim, when it was due
and not too old. -/
def MayRetry (calls : List CallEvent) (k : String) (retryCount nextRetryAt : Int) : Prop :=
  ∃ item ∈ held calls, item.paymentHash = k ∧ ∃ (i : Nat) (read : Int),
    (⟨i, .env .nowMillis, read⟩ : CallEvent) ∈ sinceClaim calls ∧ item.nextRetryAt ≤ read ∧
    read - item.createdAt ≤ maxRetryDurationMs ∧ retryCount = item.retryCount + 1 ∧
    nextRetryAt = read + nextRetryDelay retryCount

/-- What may be done to the queue. -/
def MayTouch (state : State) (calls : List CallEvent) : Call → Prop
  | .payment (.insertPendingZapReceipt pending) => IsFresh pending
  | .payment (.insertPendingZapReceiptBatch batch) => ∀ pending ∈ batch, IsFresh pending
  | .payment (.updatePendingZapReceiptRetry k retryCount nextRetryAt) =>
      MayRetry calls k retryCount nextRetryAt
  | .payment (.deletePendingZapReceipt k) => MayDrop state calls k
  | _ => True

/-- The call queues an entry for the payment hash. -/
def queuesFor (k : String) (ev : CallEvent) : Prop :=
  ev.call.queuesReceipt k = true ∧ storeFailed ev = false

/-- No receipt is queued twice. -/
def QueuedOnce (log : List CallEvent) : Prop :=
  log.Pairwise fun earlier later => ∀ k, queuesFor k earlier → ¬ queuesFor k later

/-- Where no receipt is queued twice, all entries seen of a payment are of the one
that was queued, and the retry times follow the schedule. -/
structure QueuePaced (h : History) : Prop where
  rows : ∀ k row, h.state.pendingOf k = some row → Paced row.entry
  queued : ∀ k row, h.state.pendingOf k = some row → ∃ ev ∈ h.log, queuesFor k ev
  answered : ∀ ev ∈ h.log, ∀ items, claims ev = some items → ∀ item ∈ items,
    Paced item ∧ (∃ ev ∈ h.log, queuesFor item.paymentHash ev) ∧
      ∀ row, h.state.pendingOf item.paymentHash = some row → row.entry.createdAt = item.createdAt

def queueContract (state : State) : Contract Request Call Reply World where
  inv h := QueuedOnce h.log → QueuePaced h
  rely i h h' := h'.callsOf i = h.callsOf i ∧ h.state.clock.millis ≤ h'.state.clock.millis
  guard i _ h c := MayTouch state (h.callsOf i) c

section Law

variable {state : State} {ok : History → CallEvent → Prop} {h : History} {i : Nat}
  {q : Request} {c : Call} {ch : Choice c} {r : Reply c} {w w' : World} {calls : List CallEvent}
  {item : PendingZapReceipt} {k : String}

/-- What a thread holds was answered by its last claim. -/
theorem held_split (h : item ∈ held calls) :
    ∃ earlier ev items, claims ev = some items ∧ item ∈ items ∧
      calls = earlier ++ ev :: sinceClaim calls := by
  have hne : held calls ≠ [] := List.ne_nil_of_mem h
  obtain ⟨earlier, ev, later, hcalls, hev, hlater⟩ := exists_of_lastWrite (x := held calls) rfl hne
  have hsince : sinceClaim calls = later := by
    rw [hcalls]
    refine sinceLast_split (by rw [hev]; rfl) fun y hy => ?_
    rw [hlater y hy]
    rfl
  exact ⟨earlier, ev, held calls, hev, h, by rw [hsince]; exact hcalls⟩

/-- A claim answers with rows. -/
theorem row_of_claims {items : List PendingZapReceipt} (hexec : exec c ch w = some (r, w'))
    (hclaims : claims ⟨i, c, r⟩ = some items) (hitem : item ∈ items) :
    ∃ row, w.pendingOf item.paymentHash = some row ∧ row.entry = item ∧
      mayBeClaimed w.clock.millis row := by
  unfold claims at hclaims
  split at hclaims
  · rename_i limit items hev
    cases hev
    obtain rfl := Option.some.inj hclaims
    rcases execPayment_cases (exec_payment hexec) with ⟨_, e, hr⟩ | ⟨out, rfl, hr, _⟩
    · cases hr
    · obtain rfl := Except.ok.inj hr
      exact row_of_taken hitem
  · cases hclaims

/-- An entry that is answered with is the one under its payment hash. -/
theorem claimOf_of_claims {items : List PendingZapReceipt} (hexec : exec c ch w = some (r, w'))
    (hclaims : claims ⟨i, c, r⟩ = some items) (hitem : item ∈ items) :
    claimOf item.paymentHash ⟨i, c, r⟩ = some item := by
  unfold claimOf
  rw [hclaims, Option.bind_some]
  cases hfound : takenOf item.paymentHash items with
  | none => exact absurd (decide_eq_true rfl) (List.find?_eq_none.mp hfound item hitem)
  | some first =>
      have hk : first.paymentHash = item.paymentHash := by
        have hfirst := List.find?_some hfound
        exact of_decide_eq_true hfirst
      obtain ⟨row, hrow, rfl, _⟩ := row_of_claims (i := i) hexec hclaims hitem
      obtain ⟨row', hrow', rfl, _⟩ := row_of_claims hexec hclaims
        (List.mem_of_find?_eq_some hfound)
      rw [hk, hrow] at hrow'
      rw [Option.some.inj hrow']

theorem exec_nowMillis {ch : Choice (.env .nowMillis)} {now : Int}
    (h : exec (.env .nowMillis) ch w = some (now, w')) : w' = w ∧ now = w.clock.millis := by
  obtain ⟨hsame, hnow⟩ := exec_env h
  exact ⟨hsame, (Option.some.inj hnow).symm⟩

theorem millis_of_tick {millis : Nat} (h : semantics.tick millis w = some w') :
    w.clock.millis ≤ w'.clock.millis := by
  obtain ⟨clock, hclock, rfl⟩ := Option.map_eq_some_iff.mp h
  unfold Clock.advance at hclock
  split at hclock
  · cases hclock
    exact Nat.le_add_right _ _
  · cases hclock

theorem queuedOnce_concat {log : List CallEvent} {ev : CallEvent} (h : QueuedOnce (log ++ [ev])) :
    QueuedOnce log ∧ ∀ k, (∃ earlier ∈ log, queuesFor k earlier) → ¬ queuesFor k ev := by
  obtain ⟨hlog, _, hlast⟩ := List.pairwise_append.mp h
  refine ⟨hlog, fun k hqueued => ?_⟩
  obtain ⟨earlier, hmem, hearlier⟩ := hqueued
  exact hlast earlier hmem ev (List.mem_singleton_self _) k hearlier

theorem queuesFor_of_call {ev : CallEvent} {pending : PendingZapReceipt}
    (hk : pending.paymentHash = k)
    (hcall : ev.call = .payment (.insertPendingZapReceipt pending) ∨
      ∃ batch, ev.call = .payment (.insertPendingZapReceiptBatch batch) ∧ pending ∈ batch)
    (hdone : storeFailed ev = false) : queuesFor k ev := by
  refine ⟨?_, hdone⟩
  rcases hcall with hcall | ⟨batch, hcall, hmem⟩
  · rw [hcall]
    exact decide_eq_true hk
  · rw [hcall]
    exact List.any_eq_true.mpr ⟨pending, hmem, decide_eq_true hk⟩

/-- What a thread holds is paced, and as old as the row. -/
theorem QueuePaced.held (paced : QueuePaced h) (hheld : item ∈ held (h.callsOf i)) :
    Paced item ∧ ∀ row, h.state.pendingOf item.paymentHash = some row →
      row.entry.createdAt = item.createdAt := by
  obtain ⟨earlier, ev, items, hev, hitem, hcalls⟩ := held_split hheld
  have hmem : ev ∈ h.callsOf i := by
    rw [hcalls]
    exact List.mem_append_right _ List.mem_cons_self
  obtain ⟨hpaced, _, hsame⟩ := paced.answered ev (Hist.mem_callsOf.mp hmem).1 items hev item hitem
  exact ⟨hpaced, hsame⟩

/-- The row that an operation leaves, if the operation may be done. -/
theorem QueuePaced.row (paced : QueuePaced h) (hguard : MayTouch state (h.callsOf i) c)
    {new : Option PendingZapReceiptRow} {row : PendingZapReceiptRow}
    (hchange : PendingChange h.state.clock.millis k (h.state.pendingOf k) ⟨i, c, r⟩ new)
    (hrow : new = some row) : Paced row.entry := by
  cases hchange with
  | keeps => exact paced.rows k row hrow
  | @queues _ pending _ _ hcall =>
      obtain rfl := Option.some.inj hrow
      rcases hcall with hcall | ⟨batch, hcall, hmem⟩
      · obtain rfl : c = _ := hcall
        exact IsFresh.paced hguard
      · obtain rfl : c = _ := hcall
        have hfresh : ∀ pending ∈ batch, IsFresh pending := hguard
        exact (hfresh pending hmem).paced
  | @takes _ old hold =>
      obtain rfl := Option.some.inj hrow
      exact paced.rows k old hold
  | @retries _ old retryCount nextRetryAt hold =>
      obtain rfl := Option.some.inj hrow
      obtain ⟨item, hheld, rfl, _, read, _, hdue, hage, rfl, rfl⟩ :
        MayRetry (h.callsOf i) k retryCount nextRetryAt := hguard
      obtain ⟨hpaced, hsame⟩ := paced.held hheld
      have hput := hpaced.putOff hdue hage
      refine ⟨hput.count, ?_, ?_⟩
      · show old.entry.createdAt + _ ≤ _
        rw [hsame old hold]
        exact hput.waited
      · show _ ≤ old.entry.createdAt + _ + _
        rw [hsame old hold]
        exact hput.recent
  | drops => cases hrow

/-- A stored entry is as old as the one before, or it was queued just now. -/
theorem PendingChange.origin {now : Int} {old : Option PendingZapReceiptRow} {ev : CallEvent}
    {row : PendingZapReceiptRow} (h : PendingChange now k old ev (some row)) :
    (∃ before, old = some before ∧ before.entry.createdAt = row.entry.createdAt) ∨
      old = none ∧ queuesFor k ev := by
  generalize hsome : some row = new at h
  cases h with
  | keeps => exact Or.inl ⟨row, hsome.symm, rfl⟩
  | queues hnone hk hcall hdone => exact Or.inr ⟨hnone, queuesFor_of_call hk hcall hdone⟩
  | takes hold =>
      obtain rfl := Option.some.inj hsome
      exact Or.inl ⟨_, hold, rfl⟩
  | retries hold =>
      obtain rfl := Option.some.inj hsome
      exact Or.inl ⟨_, hold, rfl⟩
  | drops => cases hsome

theorem QueuePaced.call (paced : QueuePaced h) (honce : QueuedOnce (h.log ++ [⟨i, c, r⟩]))
    (hguard : MayTouch state (h.callsOf i) c) (hexec : exec c ch h.state = some (r, w')) :
    QueuePaced (h.push ⟨i, c, r⟩ w') := by
  obtain ⟨_, hnew⟩ := queuedOnce_concat honce
  have older : ∀ {k}, (∃ ev ∈ h.log, queuesFor k ev) →
      ∃ ev ∈ (h.push ⟨i, c, r⟩ w').log, queuesFor k ev := by
    rintro k ⟨ev, hev, hqueues⟩
    exact ⟨ev, List.mem_append_left _ hev, hqueues⟩
  have origin : ∀ {k row}, (h.push ⟨i, c, r⟩ w').state.pendingOf k = some row →
      (∃ before, h.state.pendingOf k = some before ∧
        before.entry.createdAt = row.entry.createdAt) ∨
      h.state.pendingOf k = none ∧ queuesFor k ⟨i, c, r⟩ := by
    intro k row hrow
    have hchange := exec_pending (i := i) hexec k
    rw [show w'.pendingOf k = some row from hrow] at hchange
    exact hchange.origin
  refine ⟨fun k row hrow => paced.row hguard (exec_pending (i := i) hexec k) hrow,
    fun k row hrow => ?_, fun ev hev items hclaims item hitem => ?_⟩
  · rcases origin hrow with ⟨before, hold, _⟩ | ⟨_, hqueues⟩
    · exact older (paced.queued k before hold)
    · exact ⟨_, List.mem_append_right _ (List.mem_singleton_self _), hqueues⟩
  · rcases List.mem_append.mp hev with hev | hev
    · obtain ⟨hpaced, hqueued, hage⟩ := paced.answered ev hev items hclaims item hitem
      refine ⟨hpaced, older hqueued, fun row hrow => ?_⟩
      rcases origin hrow with ⟨before, hold, hsame⟩ | ⟨_, hqueues⟩
      · rw [← hsame]
        exact hage before hold
      · exact absurd hqueues (hnew _ hqueued)
    · obtain rfl := List.mem_singleton.mp hev
      obtain ⟨old, hold, rfl, _⟩ := row_of_claims hexec hclaims hitem
      refine ⟨paced.rows _ old hold, older (paced.queued _ old hold), fun row hrow => ?_⟩
      rcases origin hrow with ⟨before, hbefore, hsame⟩ | ⟨hnone, _⟩
      · obtain rfl := Option.some.inj (hold.symm.trans hbefore)
        exact hsame.symm
      · rw [hold] at hnone
        cases hnone

theorem queueContract_lawful : (queueContract state).Lawful semantics ok where
  refl := fun _ _ => ⟨rfl, le_refl _⟩
  trans := fun h₁ h₂ => ⟨h₂.1.trans h₁.1, h₁.2.trans h₂.2⟩
  call := fun inv hguard hexec _ honce => (inv (queuedOnce_concat honce).1).call honce hguard hexec
  tick := fun {h t s'} inv htick honce => by
    obtain ⟨_, hpayments, _⟩ := tick_cases htick
    have hsame : ∀ k, s'.pendingOf k = h.state.pendingOf k := fun k => by
      unfold World.pendingOf
      rw [hpayments]
    obtain ⟨rows, queued, answered⟩ := inv honce
    refine ⟨fun k row hrow => rows k row ((hsame k).symm.trans hrow),
      fun k row hrow => queued k row ((hsame k).symm.trans hrow),
      fun ev hev items hclaims item hitem => ?_⟩
    obtain ⟨hpaced, hqueued, hage⟩ := answered ev hev items hclaims item hitem
    exact ⟨hpaced, hqueued, fun row hrow => hage row ((hsame _).symm.trans hrow)⟩
  ticks := fun _ htick => ⟨rfl, millis_of_tick htick⟩
  others := fun _ _ hexec _ hne =>
    ⟨Hist.callsOf_push_ne hne, le_of_eq (congrArg Clock.millis (exec_clock hexec)).symm⟩

end Law

/-! ## Handlers that only queue -/

/-- The operations that neither put off nor drop an entry, and queue fresh ones. -/
def PaymentOp.QueuesFresh : PaymentOp → Prop
  | .insertPendingZapReceipt pending => IsFresh pending
  | .insertPendingZapReceiptBatch batch => ∀ pending ∈ batch, IsFresh pending
  | .updatePendingZapReceiptRetry _ _ _ => False
  | .deletePendingZapReceipt _ => False
  | _ => True

abbrev Call.QueuesFresh : Call → Prop := Call.Within PaymentOp.QueuesFresh

section Queueing

variable {state : State} {crates : Crates} {ok : History → CallEvent → Prop} {h : History} {i : Nat}
  {q : Request} {ε α : Type}

theorem mayTouch_fresh {calls : List CallEvent} {c : Call} (hc : c.QueuesFresh) :
    MayTouch state calls c := by
  cases c with
  | payment op => cases op <;> first | exact hc | exact trivial | cases hc
  | account op => trivial
  | env op => trivial

theorem wp_queuesFresh {p : Prog Call Reply ε α} (hp : p.Calls Call.QueuesFresh) :
    (queueContract state).wp semantics ok i q p (fun _ _ => True) h := by
  have carries : (queueContract state).Carries semantics ok i q Call.QueuesFresh fun _ => True :=
    { rely := fun _ _ => trivial
      guard := fun _ hc => mayTouch_fresh hc
      call := fun _ _ _ _ _ => trivial }
  exact carries.last hp (fun _ => trivial) trivial

theorem calls_notifyWebhooks_fresh {hashes : List String} :
    (notifyWebhooks hashes).Calls Call.QueuesFresh := by
  simp only [notifyWebhooks, Prog.bind_eq, Prog.pure_eq]
  refine Prog.calls_bind (calls_payment trivial) fun data => ?_
  split
  · exact Prog.calls_ret _
  · exact Prog.calls_bind (calls_nowMillis within_env) fun _ => calls_payment trivial

theorem calls_handleInvoicePaid_fresh {paymentHash preimage : String} {amount : Option Int} :
    (handleInvoicePaid crates paymentHash preimage amount).Calls Call.QueuesFresh := by
  simp only [handleInvoicePaid, storePreimage, enqueueZapReceipt, Prog.bind_eq, Prog.pure_eq]
  refine Prog.calls_bind Prog.calls_ofExcept fun _ => ?_
  refine Prog.calls_bind (calls_nowMillis within_env) fun _ => ?_
  refine Prog.calls_bind (Prog.calls_mapError.mpr (calls_payment trivial)) fun stored => ?_
  cases stored with
  | none => exact Prog.calls_ret _
  | some invoice =>
      refine Prog.calls_bind (Prog.calls_mapError.mpr ?_) fun _ =>
        Prog.calls_bind (Prog.calls_attempt.mpr calls_notifyWebhooks_fresh) fun _ =>
          Prog.calls_ret _
      split
      · refine Prog.calls_bind (calls_payment trivial) fun _ => ?_
        exact Prog.calls_bind (calls_nowMillis within_env) fun _ => calls_payment ⟨rfl, rfl⟩
      · exact Prog.calls_ret _

theorem calls_handleInvoicesPaid_fresh {items : List PaidInvoice} {userPubkey : String} :
    (handleInvoicesPaid crates items userPubkey).Calls Call.QueuesFresh := by
  simp only [handleInvoicesPaid, settleBatch, enqueueZapReceipts, Prog.bind_eq, Prog.pure_eq]
  refine Prog.calls_bind (calls_nowMillis within_env) fun _ => ?_
  refine Prog.calls_bind Prog.calls_ofExcept fun invoices => ?_
  refine Prog.calls_bind (Prog.calls_mapError.mpr (calls_payment trivial)) fun known => ?_
  split
  · exact Prog.calls_ret _
  · refine Prog.calls_bind (Prog.calls_mapError.mpr ?_) fun _ =>
      Prog.calls_bind (Prog.calls_attempt.mpr calls_notifyWebhooks_fresh) fun _ => Prog.calls_ret _
    refine Prog.calls_bind (calls_payment trivial) fun affected => ?_
    split
    · exact Prog.calls_ret _
    · refine Prog.calls_bind (calls_nowMillis within_env) fun now => calls_payment ?_
      intro pending hpending
      obtain ⟨_, _, rfl⟩ := List.mem_map.mp hpending
      exact ⟨rfl, rfl⟩

theorem calls_publishZapReceipt_fresh {pubkey paymentHash : String}
    {payload : PublishZapReceiptRequest} :
    (publishZapReceipt state pubkey paymentHash payload).Calls Call.QueuesFresh := by
  simp only [publishZapReceipt, Prog.bind_eq, Prog.pure_eq]
  refine Prog.calls_bind (calls_validate within_env) fun _ => ?_
  refine Prog.calls_bind Prog.calls_ofExcept fun zapReceipt => ?_
  refine Prog.calls_bind (Prog.calls_mapError.mpr (calls_payment trivial)) fun _ => ?_
  refine Prog.calls_bind Prog.calls_ofExcept fun zap =>
    Prog.calls_bind Prog.calls_require fun _ => ?_
  refine Prog.calls_bind ?_ fun _ => ?_
  · cases findPreimage zapReceipt.tags with
    | none => exact Prog.calls_ret _
    | some preimage =>
        refine Prog.calls_bind (Prog.calls_attempt.mpr calls_handleInvoicePaid_fresh)
          fun settled => ?_
        split
        · exact Prog.calls_fail _
        · exact Prog.calls_ret _
  · cases zap.zapEvent with
    | some stored => exact Prog.calls_ret _
    | none =>
        refine Prog.calls_bind Prog.calls_ofExcept fun _ => ?_
        refine Prog.calls_bind (calls_receiptToPublish_env within_env) fun _ => ?_
        refine Prog.calls_bind (calls_sendToRelays_env within_env) fun _ => ?_
        refine Prog.calls_bind (calls_nowMillis within_env) fun _ => ?_
        exact Prog.calls_bind (Prog.calls_mapError.mpr (calls_payment trivial))
          fun _ => Prog.calls_ret _

theorem prepares_fresh : ∀ c, Call.PreparesInvoice c → c.QueuesFresh :=
  Call.Within.mono fun op hop => by cases op <;> first | exact trivial | cases hop

end Queueing

/-! ## The processor -/

/-- The processor is at work on `items`, all due at `time`, and has seen `seen` since
it claimed them. -/
structure Working (i : Nat) (items : List PendingZapReceipt) (time : Int)
    (seen : List CallEvent) (h : History) : Prop where
  held : ∀ item ∈ items, item ∈ held (h.callsOf i)
  due : ∀ item ∈ items, item.nextRetryAt ≤ time
  past : time ≤ h.state.clock.millis
  seen : ∀ ev ∈ seen, ev ∈ sinceClaim (h.callsOf i)

section Processor

variable {state : State} {crates : Crates} {time : Int} {ok : History → CallEvent → Prop}
  {h : History} {i : Nat} {q : Request} {c : Call} {r : Reply c} {w' : World}
  {items rest : List PendingZapReceipt} {item : PendingZapReceipt} {seen : List CallEvent}
  {ev : CallEvent} {ε α : Type}

theorem held_push (hclaims : claims ⟨i, c, r⟩ = none) :
    held ((h.push ⟨i, c, r⟩ w').callsOf i) = held (h.callsOf i) := by
  unfold held
  rw [Hist.callsOf_push_self, lastWrite_concat, hclaims]
  rfl

theorem held_claim {claimed : List PendingZapReceipt} (hclaims : claims ⟨i, c, r⟩ = some claimed) :
    held ((h.push ⟨i, c, r⟩ w').callsOf i) = claimed := by
  unfold held
  rw [Hist.callsOf_push_self, lastWrite_concat, hclaims]
  rfl

theorem sinceClaim_push (hclaims : claims ⟨i, c, r⟩ = none) :
    sinceClaim ((h.push ⟨i, c, r⟩ w').callsOf i) = sinceClaim (h.callsOf i) ++ [⟨i, c, r⟩] := by
  unfold sinceClaim sinceLast
  rw [Hist.callsOf_push_self, List.rtakeWhile_concat]
  refine if_pos ?_
  show (!(claims ⟨i, c, r⟩).isSome) = true
  rw [hclaims]
  rfl

theorem Working.rely {h' : History} (hrely : (queueContract state).rely i h h')
    (working : Working i items time seen h) : Working i items time seen h' := by
  obtain ⟨hcalls, hclock⟩ := hrely
  obtain ⟨hheld, due, past, hseen⟩ := working
  refine ⟨?_, due, past.trans (Int.ofNat_le.mpr hclock), ?_⟩
  · rw [hcalls]
    exact hheld
  · rw [hcalls]
    exact hseen

/-- A call other than a claim is one more that was seen. -/
theorem Working.push (working : Working i items time seen h) {ch : Choice c}
    (hclaims : claims ⟨i, c, r⟩ = none) (hexec : exec c ch h.state = some (r, w')) :
    Working i items time (⟨i, c, r⟩ :: seen) (h.push ⟨i, c, r⟩ w') := by
  refine ⟨?_, working.due, ?_, ?_⟩
  · rw [held_push hclaims]
    exact working.held
  · rw [Hist.push_state, exec_clock hexec]
    exact working.past
  · rw [sinceClaim_push hclaims]
    intro ev hev
    rcases List.mem_cons.mp hev with rfl | hev
    · exact List.mem_append_right _ (List.mem_singleton_self _)
    · exact List.mem_append_left _ (working.seen ev hev)

theorem Working.mono {seen' : List CallEvent} (working : Working i items time seen h)
    (hseen : seen' ⊆ seen) : Working i items time seen' h :=
  { working with seen := fun ev hev => working.seen ev (hseen hev) }

theorem Working.tail (working : Working i (item :: rest) time seen h) :
    Working i rest time [] h where
  held := fun item hitem => working.held item (List.mem_cons_of_mem _ hitem)
  due := fun item hitem => working.due item (List.mem_cons_of_mem _ hitem)
  past := working.past
  seen := fun _ hev => absurd hev List.not_mem_nil

/-- Where the processor stands between two calls. -/
abbrev StillWorking (i : Nat) (items : List PendingZapReceipt) (h : History) : Prop :=
  ∃ time, Working i items time [] h

/-- A call of the processor, other than a claim. -/
theorem work_call {k : Reply c → Prog Call Reply ε α} {Q : History → Except ε α → Prop}
    (working : Working i items time seen h) (hclaims : ∀ r, claims ⟨i, c, r⟩ = none)
    (hguard : ∀ h, Working i items time seen h → (queueContract state).guard i q h c)
    (hk : ∀ r h, Working i items time (⟨i, c, r⟩ :: seen) h →
      (queueContract state).wp semantics ok i q (k r) Q h) :
    (queueContract state).wp semantics ok i q (.call c k) Q h := by
  refine Contract.wp_call.mpr fun h₁ hrely _ => ?_
  have working₁ := working.rely hrely
  exact ⟨hguard h₁ working₁, fun ch r s' hexec _ _ => hk r _ (working₁.push (hclaims r) hexec)⟩

/-- The processor reads the clock. -/
theorem work_now {f : Int → Prog Call Reply ε α} {Q : History → Except ε α → Prop}
    (working : Working i items time seen h)
    (hf : ∀ (now : Int) h, time ≤ now → Working i items now (⟨i, .env .nowMillis, now⟩ :: seen) h →
        (queueContract state).wp semantics ok i q (f now) Q h) :
    (queueContract state).wp semantics ok i q ((nowMillis : Prog Call Reply ε Int).bind f) Q h := by
  refine Contract.wp_bind.mpr (Contract.wp_call.mpr fun h₁ hrely _ =>
    ⟨trivial, fun ch now s' hexec _ _ => Contract.wp_ret.mpr ?_⟩)
  have hexec : exec (.env .nowMillis) ch h₁.state = some (now, s') := hexec
  have working₁ := (working.rely hrely).push rfl hexec
  obtain ⟨hsame, hnow⟩ := exec_nowMillis hexec
  have hlater : time ≤ now := by
    rw [hnow]
    exact (working.rely hrely).past
  refine hf now _ hlater { working₁ with
    due := fun item hitem => (working.due item hitem).trans hlater
    past := ?_ }
  rw [Hist.push_state, hsame]
  exact le_of_eq hnow

/-- The processor drops an entry for a reason. -/
theorem dropPending_works (working : Working i (item :: rest) time seen h)
    (hreason : ∀ since, (∀ ev ∈ seen, ev ∈ since) → DropReason state item since) :
    (queueContract state).wp semantics ok i q (dropPending item.paymentHash)
      (fun h _ => StillWorking i (item :: rest) h) h := by
  simp only [dropPending, Prog.bind_eq, Prog.pure_eq]
  refine Contract.wp_bind.mpr (Contract.wp_attempt.mpr (work_call working (fun _ => rfl) ?_ ?_))
  · intro h working
    exact ⟨item, working.held item List.mem_cons_self, rfl, hreason _ working.seen⟩
  · intro r h working
    refine Contract.wp_ofExcept.mpr (Contract.wp_ret.mpr ⟨time, working.mono ?_⟩)
    exact List.nil_subset _

/-- Where a publication leaves the processor: if it has succeeded, the receipt is
stored. -/
def Published (i : Nat) (items : List PendingZapReceipt) (time : Int)
    (seen : List CallEvent) (zap : Zap) (h : History) (res : Except PublishError Unit) : Prop :=
  ∃ now, time ≤ now ∧ Working i items now seen h ∧ (res = .ok () → ∃ event : NostrEvent,
    Working i items now (⟨i, .payment (.upsertZap { zap with
      zapEvent := some event.json, updatedAt := now }), .ok ()⟩ :: seen) h)

theorem Working.unpublished {zap : Zap} {e : PublishError}
    (working : Working i items time (ev :: seen) h) :
    Published i items time seen zap h (.error e) :=
  ⟨time, le_refl _, working.mono (List.subset_cons_self _ _), fun h => (by cases h)⟩

theorem publishPending_works {zap : Zap} {bolt11 preimage : String}
    (working : Working i items time (ev :: seen) h) :
    (queueContract state).wp semantics ok i q (publishPending crates zap bolt11 preimage)
      (Published i items time seen zap) h := by
  have forget : ∀ {ev : CallEvent} {time : Int} {h : History},
      Working i items time (ev :: seen) h → Working i items time seen h :=
    fun working => working.mono (List.subset_cons_self _ _)
  simp only [publishPending, Prog.bind_eq]
  refine Contract.wp_ofExcept_bind (fun _ => working.unpublished) fun zapRequest _ => ?_
  refine Contract.wp_bind.mpr (work_call (forget working) (fun _ => rfl) (fun _ _ => trivial)
    fun signed h working => Contract.wp_ret.mpr ?_)
  refine Contract.wp_ofExcept_bind (fun _ => working.unpublished) fun event _ => ?_
  refine Contract.wp_require_bind working.unpublished fun _ => ?_
  refine Contract.wp_bind.mpr (work_call (forget working) (fun _ => rfl) (fun _ _ => trivial)
    fun sent h working => Contract.wp_ret.mpr ?_)
  refine Contract.wp_require_bind working.unpublished fun _ => ?_
  refine work_now (forget working) fun now h hlater working => ?_
  refine Contract.wp_mapError.mpr (work_call (forget working) (fun r => by cases r <;> rfl)
    (fun _ _ => trivial) fun r h working => ?_)
  refine Contract.wp_ofExcept.mpr ⟨now, hlater, forget working, fun hr => ?_⟩
  cases r with
  | error e => cases hr
  | ok _ => exact ⟨event, working⟩

/-- The processor publishes the receipt and drops the entry, or puts it off. -/
theorem publishOrRetry_works {zap : Zap} {bolt11 preimage : String} {now : Int}
    (hk : zap.paymentHash = item.paymentHash) (hage : now - item.createdAt ≤ maxRetryDurationMs)
    (working : Working i (item :: rest) now [ev, ⟨i, .env .nowMillis, now⟩] h) :
    (queueContract state).wp semantics ok i q
      (publishOrRetry crates item now zap bolt11 preimage)
      (fun h _ => StillWorking i (item :: rest) h) h := by
  simp only [publishOrRetry, Prog.bind_eq, Prog.pure_eq]
  refine Contract.wp_bind.mpr (Contract.wp_attempt.mpr (Contract.wp_mono ?_
    (publishPending_works working)))
  intro h res published
  obtain ⟨time, hlater, working', hpublished⟩ := published
  cases res with
  | ok _ =>
      obtain ⟨event, working⟩ := hpublished rfl
      exact dropPending_works working fun since hseen =>
        .published (hseen _ List.mem_cons_self) hk rfl
  | error e =>
      refine Contract.wp_bind.mpr (Contract.wp_attempt.mpr (work_call working' (fun _ => rfl)
        (fun h working' => ?_) fun r h working' => ?_))
      · exact ⟨item, working'.held item List.mem_cons_self, rfl, i, now,
          working'.seen _ List.mem_cons_self, working.due item List.mem_cons_self, hage, rfl, rfl⟩
      · refine Contract.wp_ofExcept.mpr (Contract.wp_ret.mpr ⟨time, working'.mono ?_⟩)
        exact List.nil_subset _

theorem processPendingZapReceipt_works (working : Working i (item :: rest) time [] h) :
    (queueContract state).wp semantics ok i q (processPendingZapReceipt state item)
      (fun h _ => StillWorking i (item :: rest) h) h := by
  simp only [processPendingZapReceipt, Prog.bind_eq, Prog.pure_eq]
  split
  · rename_i hkeys
    exact dropPending_works working fun _ _ => .noKeys hkeys
  · refine work_now working fun now h _ working => ?_
    split
    · rename_i hold
      exact dropPending_works working fun since hseen => .tooOld (hseen _ List.mem_cons_self) hold
    · rename_i hage
      refine Contract.wp_bind.mpr (Contract.wp_attempt.mpr (Contract.wp_call.mpr fun h₁ hrely _ =>
        ⟨trivial, fun ch r s' hexec _ _ => Contract.wp_ofExcept.mpr ?_⟩))
      have hexec : exec (.payment (.getZapAndInvoiceByPaymentHash item.paymentHash)) ch h₁.state =
        some (r, s') := hexec
      have hclaims : claims ⟨i, .payment (.getZapAndInvoiceByPaymentHash item.paymentHash), r⟩ =
        none := by cases r <;> rfl
      have working := (working.rely hrely).push hclaims hexec
      have still : StillWorking i (item :: rest) (h₁.push
          ⟨i, .payment (.getZapAndInvoiceByPaymentHash item.paymentHash), r⟩ s') :=
        ⟨now, working.mono (List.nil_subset _)⟩
      cases r with
      | error e => exact Contract.wp_ret.mpr still
      | ok stored =>
          obtain ⟨stored, invoice⟩ := stored
          cases stored with
          | none =>
              exact dropPending_works working fun since hseen => .noZap (hseen _ List.mem_cons_self)
          | some zap =>
              show (queueContract state).wp _ _ _ _
                (if zap.zapEvent.isSome = true then _ else _) _ _
              by_cases hevent : zap.zapEvent.isSome = true
              · rw [if_pos hevent]
                exact dropPending_works working fun since hseen =>
                  .hasReceipt (hseen _ List.mem_cons_self) hevent
              · rw [if_neg hevent]
                cases invoice with
                | none =>
                    exact dropPending_works working fun since hseen =>
                      .noInvoice (hseen _ List.mem_cons_self)
                | some invoice =>
                    dsimp only
                    cases invoice.preimage with
                    | none => exact Contract.wp_ret.mpr still
                    | some preimage =>
                        have hk : zap.paymentHash = item.paymentHash :=
                          Table.key_of_get (read_zapAndInvoice hexec).1
                        exact publishOrRetry_works hk (not_lt.mp hage) working

theorem processBatch_works (working : Working i items time [] h) :
    (queueContract state).wp semantics ok i q (processBatch state items) (fun _ _ => True) h := by
  induction items generalizing h time with
  | nil => exact Contract.wp_ret.mpr trivial
  | cons item rest ih =>
      refine Contract.wp_bind.mpr (Contract.wp_mono ?_ (processPendingZapReceipt_works working))
      intro h r still
      obtain ⟨time, working⟩ := still
      cases r with
      | error e => exact trivial
      | ok _ => exact ih working.tail

theorem processPendingZapReceipts_works {rounds : Nat} :
    (queueContract state).wp semantics ok i q (processPendingZapReceipts state rounds)
      (fun _ _ => True) h := by
  induction rounds generalizing h with
  | zero => exact Contract.wp_ret.mpr trivial
  | succ rounds ih =>
      refine Contract.wp_bind.mpr (Contract.wp_attempt.mpr (Contract.wp_call.mpr fun h₁ hrely _ =>
        ⟨trivial, fun ch r s' hexec _ _ => Contract.wp_ofExcept.mpr ?_⟩))
      have hexec : exec (.payment (.takePendingZapReceipts zapReceiptBatchLimit)) ch h₁.state =
        some (r, s') := hexec
      cases r with
      | error e => exact Contract.wp_ret.mpr trivial
      | ok claimed =>
          -- what was claimed was due
          have working : Working i claimed s'.clock.millis [] (h₁.push
              ⟨i, .payment (.takePendingZapReceipts zapReceiptBatchLimit), .ok claimed⟩ s') := by
            refine ⟨fun item hitem => ?_, fun item hitem => ?_, le_refl _,
              fun _ hev => absurd hev List.not_mem_nil⟩
            · rw [held_claim rfl]
              exact hitem
            · obtain ⟨row, _, rfl, hdue, _⟩ := row_of_claims (i := i) hexec rfl hitem
              rw [exec_clock hexec]
              exact hdue
          dsimp only
          split
          · exact Contract.wp_ret.mpr trivial
          · refine Contract.wp_bind.mpr (Contract.wp_mono ?_ (processBatch_works working))
            intro h res _
            cases res with
            | error e => exact trivial
            | ok _ =>
                dsimp only
                split
                · exact Contract.wp_ret.mpr trivial
                · exact ih

end Processor

/-! ## Every handler -/

section Handlers

variable {state : State} {ok : History → CallEvent → Prop} {q : Request}

theorem quiet_mayTouch {calls : List CallEvent} {c : Call} (hc : ¬ c.WritesPayments) :
    MayTouch state calls c := by
  cases c with
  | payment op => cases op <;> first | exact trivial | exact absurd id hc
  | account op => trivial
  | env op => trivial

theorem queuePieces : PaymentPieces (queueContract state) ok state q where
  spares := fun _ hc => quiet_mayTouch hc
  paid := wp_queuesFresh calls_handleInvoicePaid_fresh
  batch := wp_queuesFresh calls_handleInvoicesPaid_fresh
  expires := wp_queuesFresh (calls_expireBlinkInvoice_env within_env trivial fun _ => trivial)
  callback := wp_queuesFresh
    (calls_handleInvoiceForResolvedDomain prepares_fresh fun _ _ => trivial)
  publish := fun _ => wp_queuesFresh calls_publishZapReceipt_fresh
  process := processPendingZapReceipts_works

theorem queue_outline (state : State) :
    Outline (queueContract state) semantics always (handler state) (fun _ _ _ _ => True) where
  lawful := queueContract_lawful
  post_stable := fun _ _ _ => trivial
  accept := fun _ _ => queuePieces.handler

theorem queue_initial (state : State) (clock : Clock) :
    (queueContract state).inv ⟨World.fresh clock, []⟩ :=
  fun _ => ⟨fun _ _ hrow => (by cases hrow), fun _ _ hrow => (by cases hrow),
    fun _ hev => absurd hev List.not_mem_nil⟩

end Handlers

end BlinkLnurl
