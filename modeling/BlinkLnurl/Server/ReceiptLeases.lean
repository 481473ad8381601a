import BlinkLnurl.Lib.Stretch
import BlinkLnurl.Server.PendingQueue

/-!
# The receipt queue in runs

A queue entry leaves the queue only by the hand of a thread that has claimed it
and has seen, since the claim, that nothing is left to publish
(`pending_receipts_leave_for_reason`). Two claims of an entry that nobody releases
in between are more than the lease apart (`pending_receipts_leased`), and an entry
that was put off is not claimed again before its delay is over
(`pending_receipts_backed_off`). Unless a receipt is queued twice, an entry is put
off 24 times at most (`pending_retries_bounded`).
-/

namespace BlinkLnurl

open Conc Rel PaymentStore

/-! ## Claims in a run -/

/-- On the way to `cfg`, thread `i` has claimed the entry, at the time `time`. -/
def ClaimedBefore (state : State) (clock : Clock) (i : Nat) (item : PendingZapReceipt) (time : Int)
    (cfg : Server) : Prop :=
  ∃ claimed claimed' ev,
    Took semantics always (handler state) (World.fresh clock) cfg ev claimed claimed' ∧
    ev.thread = i ∧ claimOf item.paymentHash ev = some item ∧
    claimed.hist.state.clock.millis = time

/-- There is no receipt to publish for the entry, or it is too late for one: the
server has no keys, the entry is older than the processor retries for, the
payment has no zap or no invoice, or its receipt is stored. -/
def NeedsNoReceipt (state : State) (w : World) (item : PendingZapReceipt) : Prop :=
  state.nostrKeys = none ∨ w.clock.millis - item.createdAt > maxRetryDurationMs ∨
    w.payments.zaps.get item.paymentHash = none ∨
    w.payments.invoiceOf item.paymentHash = none ∨ (w.receiptOf item.paymentHash).isSome

section Runs

variable {state : State} {clock : Clock} {cfg cfg' : Server} {i : Nat} {k : String} {time : Int}
  {item : PendingZapReceipt} {ev : CallEvent}

theorem steps_millis {ok : History → CallEvent → Prop}
    (h : Steps semantics ok (handler state) cfg cfg') :
    cfg.hist.state.clock.millis ≤ cfg'.hist.state.clock.millis := by
  induction h with
  | refl => exact le_refl _
  | tail _ hstep ih =>
      cases hstep with
      | accept => exact ih
      | call _ hexec _ => exact ih.trans (le_of_eq (congrArg Clock.millis (exec_clock hexec)).symm)
      | tick htick => exact ih.trans (millis_of_tick htick)

theorem ClaimedBefore.steps (h : ClaimedBefore state clock i item time cfg)
    (hsteps : Steps semantics always (handler state) cfg cfg') :
    ClaimedBefore state clock i item time cfg' := by
  obtain ⟨claimed, claimed', ev, took, hthread, hclaim, htime⟩ := h
  exact ⟨claimed, claimed', ev, ⟨took.before, took.step, took.after.trans hsteps, took.log⟩,
    hthread, hclaim, htime⟩

theorem claimedBefore_of_took {claimed claimed' : Server} {items : List PendingZapReceipt}
    (took : Took semantics always (handler state) (World.fresh clock) cfg ev claimed claimed')
    (hclaims : claims ev = some items) (hitem : item ∈ items) :
    ∃ time, ClaimedBefore state clock ev.thread item time cfg := by
  obtain ⟨j, c, r⟩ := ev
  obtain ⟨_, _, _, _, hexec, _⟩ := took.call
  exact ⟨_, claimed, claimed', _, took, rfl, claimOf_of_claims hexec hclaims hitem, rfl⟩

theorem claimedBefore_of_held
    (hreach : Reachable semantics always (handler state) (World.fresh clock) cfg)
    (hheld : item ∈ held (cfg.hist.callsOf i)) :
    ∃ time, ClaimedBefore state clock i item time cfg := by
  obtain ⟨earlier, ev, items, hclaims, hitem, hcalls⟩ := held_split hheld
  have hev : ev ∈ cfg.hist.callsOf i := by
    rw [hcalls]
    exact List.mem_append_right _ List.mem_cons_self
  obtain ⟨hlog, hthread⟩ := Hist.mem_callsOf.mp hev
  obtain ⟨claimed, claimed', took⟩ := hreach.took hlog
  rw [← hthread]
  exact claimedBefore_of_took took hclaims hitem

/-- What a thread has seen since its claim was in a step after the claim. -/
theorem took_sinceClaim
    (hreach : Reachable semantics always (handler state) (World.fresh clock) cfg)
    (hheld : item ∈ held (cfg.hist.callsOf i)) (hev : ev ∈ sinceClaim (cfg.hist.callsOf i)) :
    ∃ mid mid' time, Took semantics always (handler state) (World.fresh clock) cfg ev mid mid' ∧
      ClaimedBefore state clock i item time mid := by
  obtain ⟨earlier, claim, items, hclaims, hitem, hcalls⟩ := held_split hheld
  obtain ⟨front, back, hsince⟩ := List.append_of_mem hev
  rw [hsince, ← List.cons_append, ← List.append_assoc] at hcalls
  obtain ⟨before, rest, hlog, hbefore, hrest⟩ := List.filter_eq_append_iff.mp hcalls
  obtain ⟨skipped, after, rfl, _, _, _⟩ := List.filter_eq_cons_iff.mp hrest
  rw [← List.append_assoc] at hlog
  obtain ⟨mid, mid', took, hmid⟩ := hreach.took_at hlog
  have hclaim : claim ∈ before ∧ claim.thread = i := by
    have hmem : claim ∈ before.filter fun ev => decide (ev.thread = i) := by
      rw [hbefore]
      exact List.mem_append_right _ List.mem_cons_self
    obtain ⟨hmem, hthread⟩ := List.mem_filter.mp hmem
    exact ⟨hmem, of_decide_eq_true hthread⟩
  have hmem : claim ∈ mid.hist.log := by
    rw [hmid]
    exact List.mem_append_left _ hclaim.1
  obtain ⟨claimed, claimed', tookClaim⟩ := took.before.took hmem
  obtain ⟨time, hclaimed⟩ := claimedBefore_of_took tookClaim hclaims hitem
  rw [hclaim.2] at hclaimed
  exact ⟨mid, mid', time, took, hclaimed⟩

/-- Where the reason for a drop was seen, nothing was left to publish. -/
theorem needsNoReceipt_of_reason
    (hreach : Reachable semantics always (handler state) (World.fresh clock) cfg)
    (hheld : item ∈ held (cfg.hist.callsOf i))
    (hreason : DropReason state item (sinceClaim (cfg.hist.callsOf i))) :
    ∃ seen time, ClaimedBefore state clock i item time seen ∧
      Steps semantics always (handler state) seen cfg ∧
      NeedsNoReceipt state seen.hist.state item := by
  -- the answer to a reading of the rows
  have looked : ∀ {j : Nat} {stored : Option Zap × Option Invoice},
      (⟨j, .payment (.getZapAndInvoiceByPaymentHash item.paymentHash), .ok stored⟩ : CallEvent) ∈
        sinceClaim (cfg.hist.callsOf i) →
      ∃ seen time, ClaimedBefore state clock i item time seen ∧
        Steps semantics always (handler state) seen cfg ∧
        seen.hist.state.payments.zaps.get item.paymentHash = stored.1 ∧
        seen.hist.state.payments.invoiceOf item.paymentHash = stored.2 := by
    intro j stored hev
    obtain ⟨mid, mid', time, took, hclaimed⟩ := took_sinceClaim hreach hheld hev
    obtain ⟨_, _, ch, _, hexec, _⟩ := took.call
    obtain ⟨hzap, hinvoice⟩ := read_zapAndInvoice hexec
    exact ⟨mid, time, hclaimed, .head took.step took.after, hzap, hinvoice⟩
  cases hreason with
  | noKeys hkeys =>
      obtain ⟨time, hclaimed⟩ := claimedBefore_of_held hreach hheld
      exact ⟨cfg, time, hclaimed, .refl, Or.inl hkeys⟩
  | tooOld hev hold =>
      obtain ⟨mid, mid', time, took, hclaimed⟩ := took_sinceClaim hreach hheld hev
      obtain ⟨_, _, ch, _, hexec, _⟩ := took.call
      have hexec : exec (.env .nowMillis) ch mid.hist.state = some (_, mid'.hist.state) := hexec
      obtain ⟨_, hnow⟩ := exec_nowMillis hexec
      rw [hnow] at hold
      exact ⟨mid, time, hclaimed, .head took.step took.after, Or.inr (Or.inl hold)⟩
  | noZap hev =>
      obtain ⟨seen, time, hclaimed, hsteps, hzap, _⟩ := looked hev
      exact ⟨seen, time, hclaimed, hsteps, Or.inr (Or.inr (Or.inl hzap))⟩
  | hasReceipt hev hevent =>
      obtain ⟨seen, time, hclaimed, hsteps, hzap, _⟩ := looked hev
      refine ⟨seen, time, hclaimed, hsteps, Or.inr (Or.inr (Or.inr (Or.inr ?_)))⟩
      unfold World.receiptOf
      rw [hzap]
      exact hevent
  | noInvoice hev =>
      obtain ⟨seen, time, hclaimed, hsteps, _, hinvoice⟩ := looked hev
      exact ⟨seen, time, hclaimed, hsteps, Or.inr (Or.inr (Or.inr (Or.inl hinvoice)))⟩
  | @published j zap hev hk hevent =>
      obtain ⟨mid, mid', time, took, hclaimed⟩ := took_sinceClaim hreach hheld hev
      obtain ⟨_, _, ch, _, hexec, _⟩ := took.call
      have hexec : exec (.payment (.upsertZap zap)) ch mid.hist.state =
        some (.ok (), mid'.hist.state) := hexec
      refine ⟨mid', time, hclaimed.steps (.single took.step), took.after,
        Or.inr (Or.inr (Or.inr (Or.inr ?_)))⟩
      rw [← hk, receiptOf_of_written (i := j) hexec rfl, if_pos rfl]
      exact hevent

/-- However tasks and requests interleave: an entry that is no longer in the queue
was deleted by a thread that had claimed an entry of the payment, and at some time
since that claim there was no receipt to publish for it. -/
theorem pending_receipts_leave_for_reason
    (hreach : Reachable semantics always (handler state) (World.fresh clock) cfg)
    (hsteps : Steps semantics always (handler state) cfg cfg')
    (hqueued : (cfg.hist.state.pendingOf k).isSome) (hgone : cfg'.hist.state.pendingOf k = none) :
    ∃ (i : Nat) (item : PendingZapReceipt) (time : Int) (seen dropping dropped : Server),
      item.paymentHash = k ∧ ClaimedBefore state clock i item time seen ∧
      NeedsNoReceipt state seen.hist.state item ∧
      Steps semantics always (handler state) seen dropping ∧
      Steps semantics always (handler state) cfg dropping ∧
      Took semantics always (handler state) (World.fresh clock) cfg'
        ⟨i, .payment (.deletePendingZapReceipt k), .ok ()⟩ dropping dropped := by
  have hlost : ¬ (cfg'.hist.state.pendingOf k).isSome := by
    rw [hgone]
    exact Bool.false_ne_true
  obtain ⟨mid, mid', hbefore, hturn, hafter, hmid, hmid'⟩ :=
    Steps.turns (P := fun w => (w.pendingOf k).isSome) hsteps hqueued hlost
  have hreachMid : Reachable semantics always (handler state) (World.fresh clock) mid :=
    hreach.trans hbefore
  have hturn' := hturn
  cases hturn with
  | accept => exact absurd hmid hmid'
  | @tick t s' htick =>
      obtain ⟨_, hpayments, _⟩ := tick_cases htick
      refine absurd ?_ hmid'
      show (s'.payments.pendingOf k).isSome
      rw [hpayments]
      exact hmid
  | @call i q c next ch r s' hth hexec _ =>
      have hguard := (Reachable.sound (queue_outline state) (queue_initial state clock)
        hreachMid).guard queueContract_lawful.toKeeps hth
      have hmid' : ¬ (s'.pendingOf k).isSome := hmid'
      have hchange := exec_pending (i := i) hexec k
      generalize hev : (⟨i, c, r⟩ : CallEvent) = ev at hchange
      generalize hnew : s'.pendingOf k = new at hchange hmid'
      cases hchange with
      | keeps => exact absurd hmid hmid'
      | queues => exact absurd rfl hmid'
      | takes => exact absurd rfl hmid'
      | retries => exact absurd rfl hmid'
      | drops =>
          cases hev
          obtain ⟨item, hheld, hk, hreason⟩ : MayDrop state (mid.hist.callsOf i) k := hguard
          obtain ⟨seen, time, hclaimed, hseen, hneeds⟩ :=
            needsNoReceipt_of_reason hreachMid hheld hreason
          exact ⟨i, item, time, seen, mid, _, hk, hclaimed, hneeds, hseen, hbefore,
            hreachMid, hturn', hafter, rfl⟩

end Runs

/-! ## Leases -/

/-- The call puts the entry of the payment off, or drops it. -/
def releasesEntry (k : String) : CallEvent → Bool
  | ⟨_, .payment (.updatePendingZapReceiptRetry paymentHash _ _), .ok _⟩ => paymentHash = k
  | ⟨_, .payment (.deletePendingZapReceipt paymentHash), .ok _⟩ => paymentHash = k
  | _ => false

/-- The entry is stored, and was last claimed at `since` or later. -/
def LeasedSince (since : Int) (k : String) (item : PendingZapReceipt) (w : World) : Prop :=
  since ≤ w.clock.millis ∧ ∃ time, since ≤ time ∧ w.pendingOf k = some ⟨item, some time⟩

/-- A stored entry has the retry count and the retry time. -/
def PutOff (k : String) (retryCount nextRetryAt : Int) (w : World) : Prop :=
  ∃ row, w.pendingOf k = some row ∧ row.entry.retryCount = retryCount ∧
    row.entry.nextRetryAt = nextRetryAt

section Leases

variable {state : State} {clock : Clock} {cfg cfg₁ cfg₁' cfg₂ cfg₂' : Server} {i : Nat} {k : String}
  {since retryCount nextRetryAt : Int} {item item₁ item₂ : PendingZapReceipt} {c : Call}
  {ch : Choice c} {r : Reply c} {w w' : World} {first second : CallEvent}
  {between : List CallEvent}

theorem pendingOf_of_tick {millis : Nat} (h : semantics.tick millis w = some w') :
    w'.pendingOf k = w.pendingOf k := by
  obtain ⟨_, hpayments, _⟩ := tick_cases h
  unfold World.pendingOf
  rw [hpayments]

/-- A lease lasts through calls that do not release the entry. -/
theorem LeasedSince.call (h : LeasedSince since k item w)
    (hkept : releasesEntry k ⟨i, c, r⟩ = false) (hexec : exec c ch w = some (r, w')) :
    LeasedSince since k item w' := by
  obtain ⟨hclock, time, htime, hrow⟩ := h
  refine ⟨by rw [exec_clock hexec]; exact hclock, ?_⟩
  have hchange := exec_pending (i := i) hexec k
  rw [hrow] at hchange
  generalize (⟨i, c, r⟩ : CallEvent) = ev at hchange hkept
  generalize w'.pendingOf k = new at hchange ⊢
  cases hchange with
  | keeps => exact ⟨time, htime, rfl⟩
  | queues hnone => cases hnone
  | takes hold =>
      obtain rfl := Option.some.inj hold
      exact ⟨w.clock.millis, hclock, rfl⟩
  | retries => cases (decide_eq_false_iff_not.mp hkept) rfl
  | drops => cases (decide_eq_false_iff_not.mp hkept) rfl

theorem LeasedSince.tick {millis : Nat} (h : LeasedSince since k item w)
    (htick : semantics.tick millis w = some w') : LeasedSince since k item w' := by
  obtain ⟨hclock, time, htime, hrow⟩ := h
  refine ⟨hclock.trans (Int.ofNat_le.mpr (millis_of_tick htick)), time, htime, ?_⟩
  rw [pendingOf_of_tick htick]
  exact hrow

/-- So do the retry count and time. -/
theorem PutOff.call (h : PutOff k retryCount nextRetryAt w)
    (hkept : releasesEntry k ⟨i, c, r⟩ = false) (hexec : exec c ch w = some (r, w')) :
    PutOff k retryCount nextRetryAt w' := by
  obtain ⟨row, hrow, hcount, htime⟩ := h
  unfold PutOff
  have hchange := exec_pending (i := i) hexec k
  rw [hrow] at hchange
  generalize (⟨i, c, r⟩ : CallEvent) = ev at hchange hkept
  generalize w'.pendingOf k = new at hchange ⊢
  cases hchange with
  | keeps => exact ⟨row, rfl, hcount, htime⟩
  | queues hnone => cases hnone
  | takes hold =>
      obtain rfl := Option.some.inj hold
      exact ⟨_, rfl, hcount, htime⟩
  | retries => cases (decide_eq_false_iff_not.mp hkept) rfl
  | drops => cases (decide_eq_false_iff_not.mp hkept) rfl

theorem PutOff.tick {millis : Nat} (h : PutOff k retryCount nextRetryAt w)
    (htick : semantics.tick millis w = some w') : PutOff k retryCount nextRetryAt w' := by
  obtain ⟨row, hrow, hfields⟩ := h
  exact ⟨row, (pendingOf_of_tick htick).trans hrow, hfields⟩

/-- What a claim finds, and what it leaves. -/
theorem row_of_claimOf (hexec : exec c ch w = some (r, w'))
    (hclaim : claimOf k ⟨i, c, r⟩ = some item) :
    ∃ claimedAt, w.pendingOf k = some ⟨item, claimedAt⟩ ∧
      mayBeClaimed w.clock.millis ⟨item, claimedAt⟩ ∧
      w'.pendingOf k = some ⟨item, some w.clock.millis⟩ := by
  have hchange := exec_pending (i := i) hexec k
  generalize hev : (⟨i, c, r⟩ : CallEvent) = ev at hchange hclaim
  generalize w.pendingOf k = old at hchange ⊢
  generalize w'.pendingOf k = new at hchange ⊢
  cases hchange with
  | keeps hnone =>
      rw [hclaim] at hnone
      cases hnone
  | queues _ _ hcall =>
      subst hev
      rcases hcall with hcall | ⟨batch, hcall, _⟩
      · obtain rfl : c = _ := hcall
        cases hclaim
      · obtain rfl : c = _ := hcall
        cases hclaim
  | @takes _ row hold hmay htaken =>
      obtain rfl := Option.some.inj (hclaim.symm.trans htaken)
      exact ⟨row.claimedAt, hold, hmay, rfl⟩
  | retries => cases hclaim
  | drops => cases hclaim

/-- Of two claims of a payment's entry, with no call in between that puts it off or
drops it, the second is of the same entry, and more than the lease later. -/
theorem pending_receipts_leased
    (took₁ : Took semantics always (handler state) (World.fresh clock) cfg₂ first cfg₁ cfg₁')
    (took₂ : Took semantics always (handler state) (World.fresh clock) cfg second cfg₂ cfg₂')
    (hclaim₁ : claimOf k first = some item₁) (hclaim₂ : claimOf k second = some item₂)
    (hlog : cfg₂.hist.log = cfg₁'.hist.log ++ between)
    (hkept : ∀ ev ∈ between, releasesEntry k ev = false) :
    item₂ = item₁ ∧ cfg₁.hist.state.clock.millis + claimLease < cfg₂.hist.state.clock.millis := by
  obtain ⟨i₁, c₁, r₁⟩ := first
  obtain ⟨i₂, c₂, r₂⟩ := second
  obtain ⟨_, _, ch₁, _, hexec₁, _⟩ := took₁.call
  obtain ⟨_, _, ch₂, _, hexec₂, _⟩ := took₂.call
  obtain ⟨_, _, _, hclaimed⟩ := row_of_claimOf hexec₁ hclaim₁
  obtain ⟨claimedAt, hrow, ⟨_, hfree⟩, _⟩ := row_of_claimOf hexec₂ hclaim₂
  have hstart : LeasedSince cfg₁.hist.state.clock.millis k item₁ cfg₁'.hist.state :=
    ⟨le_of_eq (congrArg (fun clock : Clock => (clock.millis : Int)) (exec_clock hexec₁)).symm,
      _, le_refl _, hclaimed⟩
  obtain ⟨_, time, htime, hleased⟩ := Steps.keeps_since
    (I := LeasedSince cfg₁.hist.state.clock.millis k item₁)
    (P := fun ev => releasesEntry k ev = false) (fun h hev hexec => h.call hev hexec)
    (fun h ht => h.tick ht) took₁.after hlog hkept hstart
  obtain ⟨rfl, rfl⟩ := PendingZapReceiptRow.mk.inj (Option.some.inj (hrow.symm.trans hleased))
  refine ⟨rfl, ?_⟩
  have hfree : time < cfg₂.hist.state.clock.millis - claimLease := hfree
  omega

theorem ClaimedBefore.time_le {time : Int} (h : ClaimedBefore state clock i item time cfg) :
    time ≤ cfg.hist.state.clock.millis := by
  obtain ⟨claimed, claimed', ev, took, _, _, rfl⟩ := h
  exact Int.ofNat_le.mpr (steps_millis (.head took.step took.after))

/-- An entry that was put off by a thread, and neither put off again nor dropped
since, is claimed with the retry count that thread has given it, one more than that
of the entry it had claimed, and only after the delay for that count has passed
since its claim. -/
theorem pending_receipts_backed_off
    (took₁ : Took semantics always (handler state) (World.fresh clock) cfg₂
      ⟨i, .payment (.updatePendingZapReceiptRetry k retryCount nextRetryAt), .ok ()⟩ cfg₁ cfg₁')
    (took₂ : Took semantics always (handler state) (World.fresh clock) cfg second cfg₂ cfg₂')
    (hqueued : (cfg₁.hist.state.pendingOf k).isSome) (hclaim₂ : claimOf k second = some item₂)
    (hlog : cfg₂.hist.log = cfg₁'.hist.log ++ between)
    (hkept : ∀ ev ∈ between, releasesEntry k ev = false) :
    item₂.retryCount = retryCount ∧ ∃ item₁ time, item₁.paymentHash = k ∧
      ClaimedBefore state clock i item₁ time cfg₁ ∧ retryCount = item₁.retryCount + 1 ∧
      time + nextRetryDelay retryCount ≤ cfg₂.hist.state.clock.millis := by
  obtain ⟨i₂, c₂, r₂⟩ := second
  obtain ⟨_, _, ch₁, hth, hexec₁, _⟩ := took₁.call
  obtain ⟨_, _, ch₂, _, hexec₂, _⟩ := took₂.call
  have hexec₁ : exec (.payment (.updatePendingZapReceiptRetry k retryCount nextRetryAt)) ch₁
    cfg₁.hist.state = some (.ok (), cfg₁'.hist.state) := hexec₁
  have hguard := (Reachable.sound (queue_outline state) (queue_initial state clock)
    took₁.before).guard queueContract_lawful.toKeeps hth
  obtain ⟨item₁, hheld, hk, j, read, hread, _, _, hcount, hnext⟩ :
    MayRetry (cfg₁.hist.callsOf i) k retryCount nextRetryAt := hguard
  obtain ⟨mid, mid', time, tookRead, hclaimed⟩ := took_sinceClaim took₁.before hheld hread
  -- the clock was read after the claim
  have htime : time ≤ read := by
    obtain ⟨_, _, ch, _, hexec, _⟩ := tookRead.call
    have hexec : exec (.env .nowMillis) ch mid.hist.state = some (read, mid'.hist.state) := hexec
    rw [(exec_nowMillis hexec).2]
    exact hclaimed.time_le
  have hstart : PutOff k retryCount nextRetryAt cfg₁'.hist.state := by
    obtain ⟨old, hold⟩ := Option.isSome_iff_exists.mp hqueued
    rcases execPayment_cases (exec_payment hexec₁) with ⟨_, _, h⟩ | ⟨out, rfl, _, hstate⟩
    · cases h
    · have hrow : cfg₁'.hist.state.pendingOf k = _ :=
        (congrArg (fun w => w.pendingOf k) hstate).trans
        pendingOf_retry
      rw [if_pos rfl, show cfg₁.hist.state.payments.pendingOf k = some old from hold] at hrow
      exact ⟨_, hrow, rfl, rfl⟩
  obtain ⟨row, hrow, hrowCount, hrowTime⟩ :=
    Steps.keeps_since (I := PutOff k retryCount nextRetryAt)
    (P := fun ev => releasesEntry k ev = false) (fun h hev hexec => h.call hev hexec)
    (fun h ht => h.tick ht) took₁.after hlog hkept hstart
  obtain ⟨claimedAt, hstored, ⟨hdue, _⟩, _⟩ := row_of_claimOf hexec₂ hclaim₂
  obtain rfl := Option.some.inj (hstored.symm.trans hrow)
  refine ⟨hrowCount, item₁, time, hk, hclaimed.steps (.head tookRead.step tookRead.after),
    hcount, ?_⟩
  have hrowTime : item₂.nextRetryAt = nextRetryAt := hrowTime
  have hdue : item₂.nextRetryAt ≤ cfg₂.hist.state.clock.millis := hdue
  omega

/-- In a run that queues no receipt twice, an entry is put off 24 times at most, it
has waited for every retry, and it is not retried for longer than 14 days and the
last delay. -/
theorem pending_retries_bounded
    (hreach : Reachable semantics always (handler state) (World.fresh clock) cfg)
    (honce : QueuedOnce cfg.hist.log) {row : PendingZapReceiptRow}
    (hrow : cfg.hist.state.pendingOf k = some row) :
    0 ≤ row.entry.retryCount ∧ row.entry.retryCount ≤ 24 ∧
      row.entry.createdAt + retrySchedule row.entry.retryCount.toNat ≤ row.entry.nextRetryAt ∧
      row.entry.nextRetryAt ≤
        row.entry.createdAt + maxRetryDurationMs + nextRetryDelay row.entry.retryCount := by
  have paced := ((Reachable.sound (queue_outline state) (queue_initial state clock) hreach).inv
    honce).rows k row hrow
  exact ⟨paced.count, paced.bounded, paced.waited, paced.recent⟩

end Leases

/-! ## Examples

A receipt of a paid zap is queued, and the processor takes it up. -/

section Example

open Schedule

def paidZap : Schedule :=
  zapped ++ serve (publishes "receipt") ++ calls 2 13 { eventJson := "r" }

def processes : Schedule := serve (.processPendingZapReceipts 1) ++ calls 3 8 { eventJson := "w" }

theorem published_receipt_leaves :
    ∃ (cfg' : Server) (i : Nat) (item : PendingZapReceipt) (time : Int)
      (seen dropping dropped : Server),
      cfg'.hist.state.pendingOf "aa" = none ∧ item.paymentHash = "aa" ∧
      ClaimedBefore zapServer ⟨1000000, startMillis_fits⟩ i item time seen ∧
      NeedsNoReceipt zapServer seen.hist.state item ∧
      Steps semantics always (handler zapServer) seen dropping ∧
      Took semantics always (handler zapServer) (World.fresh ⟨1000000, startMillis_fits⟩) cfg'
        ⟨i, .payment (.deletePendingZapReceipt "aa"), .ok ()⟩ dropping dropped := by
  have hqueued : (zapRun always paidZap).any (fun cfg =>
      (cfg.hist.state.pendingOf "aa").isSome) = true := by decide +kernel
  have hgone : (zapRun always (paidZap ++ processes)).any (fun cfg' =>
      (cfg'.hist.state.pendingOf "aa").isNone) = true := by decide +kernel
  obtain ⟨cfg, cfg', hreach, hsteps, _, _, hqueued, hgone⟩ := steps_of_replay hqueued hgone
  have hgone := Option.isNone_iff_eq_none.mp hgone
  obtain ⟨i, item, time, seen, dropping, dropped, hk, hclaimed, hneeds, hseen, _, took⟩ :=
    pending_receipts_leave_for_reason hreach hsteps hqueued hgone
  exact ⟨cfg', i, item, time, seen, dropping, dropped, hgone, hk, hclaimed, hneeds, hseen, took⟩

/-- Two processors. -/
def processors : Schedule :=
  paidZap ++ serve (.processPendingZapReceipts 1) ++ serve (.processPendingZapReceipts 1)

/-- The first processor reads the zap it has claimed, and stalls. -/
def stalls : Schedule := calls 3 2 ++ wait 300001

/-- The second one claims the entry when the lease is over. -/
theorem pending_receipts_leased_stalled :
    ∃ (cfg₁ cfg₂ cfg₂' : Server) (first second : CallEvent) (between : List CallEvent)
      (item₁ item₂ : PendingZapReceipt),
      cfg₂.hist.log = cfg₁.hist.log ++ first :: between ∧ between.length = 2 ∧
      cfg₂'.hist.log = cfg₂.hist.log ++ [second] ∧
      claimOf "aa" first = some item₁ ∧ claimOf "aa" second = some item₂ ∧ item₂ = item₁ ∧
      cfg₁.hist.state.clock.millis + claimLease < cfg₂.hist.state.clock.millis := by
  have hfirst : (zapRun always processors).any (fun cfg =>
      cfg.hist.log.length = 25) = true := by decide +kernel
  have hsecond : (zapRun always (processors ++ .call 3 (Answers.choice {}) :: stalls)).any
      (fun cfg => decide ((cfg.hist.log[25]?.bind (claimOf "aa")).isSome = true ∧
        (cfg.hist.log.drop 26).length = 2 ∧
        ∀ ev ∈ cfg.hist.log.drop 26, releasesEntry "aa" ev = false)) = true := by decide +kernel
  have hlast : (zapRun always ((processors ++ .call 3 (Answers.choice {}) :: stalls) ++
      [.call 4 (Answers.choice {})])).any
      (fun cfg => ((cfg.hist.log.getLast?.bind (claimOf "aa")).isSome)) = true := by decide +kernel
  obtain ⟨cfg₁, cfg₁', cfg₂, cfg₂', first, second, between, took₁, took₂, _, hlog, hlength, hp,
      hlast⟩ :=
    stretch_of_replay hfirst hsecond hlast
  have hbetween := drop_of_log hlog
  rw [of_decide_eq_true hlength] at hbetween
  obtain ⟨hclaim, hcount, hkept⟩ := of_decide_eq_true hp
  rw [hbetween] at hcount hkept
  rw [hlog, List.getElem?_append_right (le_of_eq (of_decide_eq_true hlength)),
    of_decide_eq_true hlength] at hclaim
  rw [took₂.log, List.getLast?_concat] at hlast
  obtain ⟨item₁, hclaim₁⟩ := Option.isSome_iff_exists.mp hclaim
  obtain ⟨item₂, hclaim₂⟩ := Option.isSome_iff_exists.mp hlast
  obtain ⟨hsame, hlease⟩ := pending_receipts_leased took₁ took₂ hclaim₁ hclaim₂
    (by rw [hlog, took₁.log, List.append_cons]) hkept
  exact ⟨cfg₁, cfg₂, cfg₂', first, second, between, item₁, item₂, hlog, hcount, took₂.log, hclaim₁,
    hclaim₂, hsame, hlease⟩

/-- The processor fails to store the receipt, and is about to put the entry off. -/
def failing : Schedule :=
  processors ++ calls 3 6 { eventJson := "w" } ++ calls 3 1 { fails := true }

/-- What an entry is put off to. -/
def putOffTo : CallEvent → Option (String × Int × Int)
  | ⟨_, .payment (.updatePendingZapReceiptRetry k retryCount nextRetryAt), .ok ()⟩ =>
      some (k, retryCount, nextRetryAt)
  | _ => none

theorem event_of_putOffTo {ev : CallEvent} {k : String} {retryCount nextRetryAt : Int}
    (h : putOffTo ev = some (k, retryCount, nextRetryAt)) :
    ev = ⟨ev.thread, .payment (.updatePendingZapReceiptRetry k retryCount nextRetryAt),
      .ok ()⟩ := by
  unfold putOffTo at h
  split at h
  · cases h
    rfl
  · cases h

/-- The second processor is too early and finds nothing to claim; a third one comes when the
entry is due. -/
def tooEarly : Schedule := calls 4 1 ++ serve (.processPendingZapReceipts 1) ++ wait 45000

theorem pending_receipts_backed_off_once :
    ∃ (cfg₁ cfg₂ cfg₂' : Server) (i : Nat) (second : CallEvent) (between : List CallEvent)
      (item₁ item₂ : PendingZapReceipt) (time : Int),
      cfg₂.hist.log = cfg₁.hist.log ++
        ⟨i, .payment (.updatePendingZapReceiptRetry "aa" 1 1045000), .ok ()⟩ :: between ∧
      between.length = 1 ∧ cfg₂'.hist.log = cfg₂.hist.log ++ [second] ∧
      claimOf "aa" second = some item₂ ∧ item₂.retryCount = 1 ∧ item₁.paymentHash = "aa" ∧
      ClaimedBefore zapServer ⟨1000000, startMillis_fits⟩ i item₁ time cfg₁ ∧
      1 = item₁.retryCount + 1 ∧ time + nextRetryDelay 1 ≤ cfg₂.hist.state.clock.millis := by
  have hfirst : (zapRun always failing).any (fun cfg =>
      decide (cfg.hist.log.length = 32 ∧ (cfg.hist.state.pendingOf "aa").isSome = true)) =
        true := by
    decide +kernel
  have hsecond : (zapRun always (failing ++ .call 3 (Answers.choice {}) :: tooEarly)).any
      (fun cfg => decide (cfg.hist.log[32]?.bind putOffTo = some ("aa", 1, 1045000) ∧
        (cfg.hist.log.drop 33).length = 1 ∧
        ∀ ev ∈ cfg.hist.log.drop 33, releasesEntry "aa" ev = false)) = true := by decide +kernel
  have hlast : (zapRun always ((failing ++ .call 3 (Answers.choice {}) :: tooEarly) ++
      [.call 5 (Answers.choice {})])).any
      (fun cfg => ((cfg.hist.log.getLast?.bind (claimOf "aa")).isSome)) = true := by decide +kernel
  obtain ⟨cfg₁, cfg₁', cfg₂, cfg₂', first, second, between, took₁, took₂, _, hlog, hp, hp',
      hlast⟩ :=
    stretch_of_replay hfirst hsecond hlast
  obtain ⟨hlength, hqueued⟩ := of_decide_eq_true hp
  have hbetween := drop_of_log hlog
  rw [hlength] at hbetween
  obtain ⟨hput, hcount, hkept⟩ := of_decide_eq_true hp'
  rw [hbetween] at hcount hkept
  rw [hlog, List.getElem?_append_right (le_of_eq hlength), hlength] at hput
  have hput : putOffTo first = some ("aa", 1, 1045000) := hput
  rw [event_of_putOffTo hput] at took₁ hlog
  rw [took₂.log, List.getLast?_concat] at hlast
  obtain ⟨item₂, hclaim₂⟩ := Option.isSome_iff_exists.mp hlast
  obtain ⟨hretries, item₁, time, hk, hclaimed, hmore, hlater⟩ := pending_receipts_backed_off took₁
    took₂ hqueued hclaim₂ (by rw [hlog, took₁.log, List.append_cons]) hkept
  exact ⟨cfg₁, cfg₂, cfg₂', first.thread, second, between, item₁, item₂, time, hlog, hcount,
    took₂.log, hclaim₂, hretries, hk, hclaimed, hmore, hlater⟩

/-- The call queues entries. -/
def isQueueing (ev : CallEvent) : Bool :=
  match ev.call with
  | .payment (.insertPendingZapReceipt _) => true
  | .payment (.insertPendingZapReceiptBatch _) => true
  | _ => false

theorem isQueueing_of_queuesFor {k : String} {ev : CallEvent} (h : queuesFor k ev) :
    isQueueing ev = true := by
  obtain ⟨hqueues, _⟩ := h
  obtain ⟨i, c, r⟩ := ev
  cases c with
  | payment op => cases op <;> first | rfl | cases hqueues
  | account op => cases hqueues
  | env op => cases hqueues

theorem pending_retries_bounded_once :
    ∃ (cfg : Server) (row : PendingZapReceiptRow),
      Reachable semantics always (handler zapServer) (World.fresh ⟨1000000, startMillis_fits⟩) cfg ∧
      cfg.hist.state.pendingOf "aa" = some row ∧ row.entry.retryCount = 1 ∧
      0 ≤ row.entry.retryCount ∧ row.entry.retryCount ≤ 24 ∧
      row.entry.createdAt + retrySchedule row.entry.retryCount.toNat ≤ row.entry.nextRetryAt ∧
      row.entry.nextRetryAt ≤
        row.entry.createdAt + maxRetryDurationMs + nextRetryDelay row.entry.retryCount := by
  have hrun : (zapRun always (failing ++ calls 3 1)).any (fun cfg =>
      decide ((cfg.hist.state.pendingOf "aa").map (fun row => row.entry.retryCount) = some 1 ∧
        (cfg.hist.log.filter isQueueing).length = 1)) = true := by decide +kernel
  obtain ⟨cfg, hreach, _, hcfg⟩ := reachable_of_replay hrun
  obtain ⟨hretried, hone⟩ := of_decide_eq_true hcfg
  obtain ⟨row, hrow, hcount⟩ := Option.map_eq_some_iff.mp hretried
  have honce : QueuedOnce cfg.hist.log := by
    obtain ⟨ev, hev⟩ := List.length_eq_one_iff.mp hone
    have hpairs : (cfg.hist.log.filter isQueueing).Pairwise fun _ _ => False := by
      rw [hev]
      exact List.pairwise_singleton _ _
    refine (List.pairwise_filter.mp hpairs).imp fun hnot k hearlier hlater => ?_
    exact hnot (isQueueing_of_queuesFor hearlier) (isQueueing_of_queuesFor hlater)
  exact ⟨cfg, row, hreach, hrow, hcount, pending_retries_bounded hreach honce hrow⟩

end Example

end BlinkLnurl
