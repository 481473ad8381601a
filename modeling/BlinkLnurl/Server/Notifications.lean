import BlinkLnurl.Repository.WebhookQueue
import BlinkLnurl.Server.Deployment
import BlinkLnurl.Server.Effects

/-!
# Webhooks over runs of the server

Settlements queue a delivery each time they are notified of a payment, and the
queue keeps one row for a payment and a domain. That row, sent or not, is all
that tells a repeated notification from the first: once the clean-up has deleted
it, the next notification queues the delivery again (`Renotifies`).
-/

namespace BlinkLnurl

open Conc Rel WebhookDeliveries

/-! ## What a call does to the queue -/

section Exec

variable {w w' : World} {c : Call} {ch : Choice c} {r : Reply c}

/-- The deliveries a call has queued. -/
def queuedDeliveries : CallEvent → Option (List NewWebhookDelivery)
  | ⟨_, .payment (.insertWebhookDeliveries deliveries), .ok _⟩ => some deliveries
  | _ => none

/-- A call queues deliveries, or leaves of the queue rows about the same. -/
theorem exec_deliveries (i : Nat) (h : exec c ch w = some (r, w')) :
    (∃ deliveries, queuedDeliveries ⟨i, c, r⟩ = some deliveries ∧
      w'.payments.webhookDeliveries =
        insertAll w.clock.millis deliveries w.payments.webhookDeliveries) ∨
    queuedDeliveries ⟨i, c, r⟩ = none ∧
      ∀ x ∈ w'.payments.webhookDeliveries, ∃ row ∈ w.payments.webhookDeliveries, row.Kept x := by
  have same : ∀ {s : PaymentStore}, s.webhookDeliveries = w.payments.webhookDeliveries →
      ∀ x ∈ s.webhookDeliveries, ∃ row ∈ w.payments.webhookDeliveries, row.Kept x :=
    fun hs x hx => ⟨x, hs ▸ hx, .refl x⟩
  cases c with
  | env op =>
      rw [(exec_env h).1]
      exact Or.inr ⟨rfl, same rfl⟩
  | account op =>
      rcases exec_payments h with hpayments | ⟨_, hop⟩
      · exact Or.inr ⟨rfl, same (by rw [hpayments])⟩
      · exact nomatch hop
  | payment op =>
      rcases execPayment_cases (exec_payment h) with ⟨rfl, e, rfl⟩ | ⟨out, rfl, rfl, rfl⟩
      · refine Or.inr ⟨?_, same rfl⟩
        cases op <;> rfl
      · cases op with
        | insertWebhookDeliveries deliveries => exact Or.inl ⟨deliveries, rfl, rfl⟩
        | takePendingWebhookDeliveries =>
            refine Or.inr ⟨rfl, fun x hx => ?_⟩
            obtain ⟨row, hrow, hkept, _⟩ := (takesPending_take _ _).kept hx
            exact ⟨row, hrow, hkept⟩
        | webhook write =>
            refine Or.inr ⟨rfl, fun x hx => ?_⟩
            obtain ⟨row, hrow, hkept, _⟩ := WebhookWrite.run_kept hx
            exact ⟨row, hrow, hkept⟩
        | insertPendingZapReceiptBatch pending =>
            exact Or.inr ⟨rfl, same PaymentStore.insertPendingZapReceiptBatch_webhookDeliveries⟩
        | _ => exact Or.inr ⟨rfl, same rfl⟩

theorem exec_onePerPair (hpairs : OnePerPair w.payments.webhookDeliveries)
    (h : exec c ch w = some (r, w')) : OnePerPair w'.payments.webhookDeliveries := by
  rcases exec_deliveries 0 h with ⟨deliveries, _, hqueued⟩ | ⟨_, hkept⟩
  · rw [hqueued]
    exact onePerPair_insertAll hpairs
  · exact onePerPair_of_kept hpairs hkept

end Exec

section Runs

variable {state : State} {clock : Clock} {cfg cfg' : Server}
  {ok : History → CallEvent → Prop}

theorem steps_onePerPair (hpairs : OnePerPair cfg.hist.state.payments.webhookDeliveries)
    (h : Steps semantics ok (handler state) cfg cfg') :
    OnePerPair cfg'.hist.state.payments.webhookDeliveries := by
  induction h with
  | refl => exact hpairs
  | tail _ hstep ih =>
      cases hstep with
      | accept => exact ih
      | call _ hexec _ => exact exec_onePerPair ih hexec
      | @tick t s' htick =>
          show OnePerPair s'.payments.webhookDeliveries
          rw [(tick_cases htick).2.1]
          exact ih

/-- In every reachable state there is one delivery for a payment and a domain. -/
theorem reachable_onePerPair
    (h : Reachable semantics ok (handler state) (World.fresh clock) cfg) :
    OnePerPair cfg.hist.state.payments.webhookDeliveries :=
  steps_onePerPair (fun _ hr => absurd hr List.not_mem_nil) h

/-! ## Sent again -/

/-- The row is the delivery of a payment to a domain. -/
def WebhookDeliveryRow.IsOf (paymentHash domain : String) (r : WebhookDeliveryRow) : Prop :=
  r.delivery.identifier = paymentHash ∧ r.delivery.domain = domain

instance (k d : String) : DecidablePred (WebhookDeliveryRow.IsOf k d) := fun _ =>
  inferInstanceAs (Decidable (_ ∧ _))

/-- The delivery was marked as sent. -/
def Delivered (paymentHash domain : String) (w : World) : Prop :=
  ∃ r ∈ w.payments.webhookDeliveries, r.IsOf paymentHash domain ∧ r.succeededAt ≠ none

/-- A take may answer with the delivery, now or later. -/
def Claimable (paymentHash domain : String) (w : World) : Prop :=
  ∃ r ∈ w.payments.webhookDeliveries, r.IsOf paymentHash domain ∧ ∃ t, r.Eligible t

/-- A notification queues the delivery while there is no row for it. -/
def Renotifies (paymentHash domain : String) (h : History) (ev : CallEvent) : Prop :=
  ∃ deliveries, queuedDeliveries ev = some deliveries ∧
    (∃ d ∈ deliveries, d.identifier = paymentHash ∧ d.domain = domain) ∧
    ∀ r ∈ h.state.payments.webhookDeliveries, ¬ r.IsOf paymentHash domain

variable {k domain : String}

theorem claimable_iff {w : World} :
    Claimable k domain w ↔ ∃ r ∈ w.payments.webhookDeliveries, r.IsOf k domain ∧
      r.succeededAt = none := by
  constructor
  · intro ⟨r, hr, hof, t, heligible⟩
    exact ⟨r, hr, hof, heligible.pending⟩
  · intro ⟨r, hr, hof, hpending⟩
    -- once it is due and any lease on it is over
    refine ⟨r, hr, hof, max r.nextRetryAt (r.claimedAt.getD 0 + PaymentStore.claimLease + 1),
      hpending, le_max_left _ _, fun c hc => ?_⟩
    rw [hc, Option.getD_some]
    omega

/-- A delivery that was sent is not claimable. -/
theorem not_claimable_of_delivered {w : World} (hpairs : OnePerPair w.payments.webhookDeliveries)
    (h : Delivered k domain w) : ¬ Claimable k domain w := by
  intro hclaimable
  obtain ⟨r, hr, hof, hdone⟩ := h
  obtain ⟨r', hr', hof', hpending⟩ := claimable_iff.mp hclaimable
  refine hdone ?_
  rw [hpairs r hr r' hr' ⟨hof.1.trans hof'.1.symm, hof.2.trans hof'.2.symm⟩]
  exact hpending

/-- A call makes the delivery claimable exactly if it queues it while there is no
row for it. -/
theorem claimable_exec {h : History} {w' : World} {c : Call} {ch : Choice c} {r : Reply c} (i : Nat)
    (hnot : ¬ Claimable k domain h.state) (hexec : exec c ch h.state = some (r, w')) :
    Claimable k domain w' ↔ Renotifies k domain h ⟨i, c, r⟩ := by
  rcases exec_deliveries i hexec with ⟨deliveries, hqueued, hrows⟩ | ⟨hnone, hkept⟩
  · constructor
    · intro hclaimable
      obtain ⟨x, hx, hof, hpending⟩ := claimable_iff.mp hclaimable
      rw [hrows] at hx
      rcases mem_insertAll hx with hold | ⟨d, hd, id, rfl, hnew⟩
      · exact absurd (claimable_iff.mpr ⟨x, hold, hof, hpending⟩) hnot
      · refine ⟨deliveries, hqueued, ⟨d, hd, hof⟩, fun row hrow hrowOf => ?_⟩
        exact hnew row hrow ⟨hrowOf.1.trans hof.1.symm, hrowOf.2.trans hof.2.symm⟩
    · intro ⟨deliveries', hqueued', ⟨d, hd, hidentifier, hdomain⟩, hno⟩
      obtain rfl := Option.some.inj (hqueued.symm.trans hqueued')
      have hqueue : ∃ x ∈ w'.payments.webhookDeliveries, IsFor x d := by
        rw [hrows]
        exact exists_mem_insertAll hd
      obtain ⟨x, hx, hfor⟩ := hqueue
      have hof : x.IsOf k domain := ⟨hfor.1.trans hidentifier, hfor.2.trans hdomain⟩
      refine claimable_iff.mpr ⟨x, hx, hof, ?_⟩
      rw [hrows] at hx
      -- the row is new, so it was not sent
      rcases mem_insertAll hx with hold | ⟨_, _, _, rfl, _⟩
      · exact absurd hof (hno x hold)
      · rfl
  · constructor
    · intro hclaimable
      obtain ⟨x, hx, hof, hpending⟩ := claimable_iff.mp hclaimable
      obtain ⟨row, hrow, hsame⟩ := hkept x hx
      refine absurd (claimable_iff.mpr ⟨row, hrow, ?_, hsame.succeeded hpending⟩) hnot
      show row.delivery.identifier = k ∧ row.delivery.domain = domain
      rw [← hsame.delivery]
      exact hof
    · intro ⟨_, hqueued, _⟩
      exact nomatch hnone.symm.trans hqueued

/-- After a delivery was sent: as long as no notification queues it while there
is no row for it, it is not claimable; and the call that does so makes it
claimable again. -/
theorem delivered_once
    (hreach : Reachable semantics always (handler state) (World.fresh clock) cfg)
    (hdelivered : Delivered k domain cfg.hist.state) :
    (∀ cfg', Steps semantics (fun h ev => ¬ Renotifies k domain h ev) (handler state) cfg cfg' →
      ¬ Claimable k domain cfg'.hist.state) ∧
    ∀ cfg', Steps semantics always (handler state) cfg cfg' → ¬ Claimable k domain cfg'.hist.state →
      ∀ i q c (rest : Reply c → Handler Response) ch r w',
        cfg'.threads[i]? = some ⟨q, .call c rest⟩ → exec c ch cfg'.hist.state = some (r, w') →
          (Claimable k domain w' ↔ Renotifies k domain cfg'.hist ⟨i, c, r⟩) := by
  constructor
  · intro cfg' hsteps
    induction hsteps with
    | refl => exact not_claimable_of_delivered (reachable_onePerPair hreach) hdelivered
    | tail _ hstep ih =>
        cases hstep with
        | accept => exact ih
        | call _ hexec hnot => exact fun h => hnot ((claimable_exec _ ih hexec).mp h)
        | @tick t s' htick =>
            show ¬ Claimable k domain s'
            unfold Claimable
            rw [(tick_cases htick).2.1]
            exact ih
  · intro cfg' _ hnot i q c rest ch r w' _ hexec
    exact claimable_exec i hnot hexec

end Runs

/-! ## Examples -/

section Example

open Deployment Schedule RustStr

/-- The owner of `alice` reports the payment of the invoice, and again in 90
days. -/
def renotifiedSigned : Deployment :=
  { payeeSigned with signed := payeeSigned.signed ++ [(ownerKey, "00-7777000")] }

def clientReportsAgain : Request := .invoicePaid ownerKey.hex ⟨"3006020101020101", 7777000, "00"⟩

/-- The delivery of the payment. -/
def payeeDelivery : WebhookDelivery where
  id := 1
  identifier := "aa"
  domain := "d.io"
  url := none
  payload := ⟨"aa", "lnbc1", "00", none, some "alice@d.io", none, 1000000⟩
  createdAt := 1000000
  retryCount := 0
  nextRetryAt := 1000000

abbrev renotifiedRun (ok : History → CallEvent → Prop) [∀ h ev, Decidable (ok h ev)]
    (ms : Schedule) : Option Server :=
  replay semantics ok (handler renotifiedSigned.state) ms
    (.initial (World.fresh ⟨1000000, startMillis_fits⟩))

/-- The payment is reported and its webhook sent. -/
def webhookSent : Schedule :=
  invoiced ++ serve clientReportsPaid ++ calls 2 10 ++
    serve .processPendingWebhookDeliveries ++ calls 3 2 ++
    serve (.processWebhookDelivery payeeDelivery) ++
    calls 4 4 { webhookConfig := some ⟨"d.io", "https://d.io/hook", "key"⟩ }

/-- 90 days pass and the clean-up runs. -/
def cleanedUp : Schedule :=
  wait 7776000001 ++ serve .cleanupOldWebhookDeliveries ++ calls 5 2

/-- The client reports the payment again, 90 days later. -/
def reportedAgain : Schedule := wait 7776000000 ++ serve clientReportsAgain ++ calls 5 7

instance (k domain : String) (w : World) : Decidable (Delivered k domain w) :=
  inferInstanceAs (Decidable (∃ r ∈ w.payments.webhookDeliveries.rows, _ ∧ _ ≠ _))

instance (k domain : String) (h : History) (ev : CallEvent) :
    Decidable (Renotifies k domain h ev) :=
  decidable_of_iff ((queuedDeliveries ev).any fun deliveries =>
      deliveries.any (fun d => d.identifier = k && d.domain = domain) &&
        h.state.payments.webhookDeliveries.rows.all fun r => ¬ r.IsOf k domain) <| by
    unfold Renotifies
    rw [Option.any_eq_true]
    refine exists_congr fun deliveries => and_congr_right fun _ => ?_
    rw [Bool.and_eq_true, List.any_eq_true, List.all_eq_true]
    refine and_congr ?_ ?_
    · exact exists_congr fun d => and_congr_right fun _ => by
        rw [Bool.and_eq_true, decide_eq_true_eq, decide_eq_true_eq]
    · exact forall_congr' fun r => imp_congr_right fun _ => decide_eq_true_iff

theorem delivered_once_reported_again :
    ∃ cfg cfg' : Server,
      Reachable semantics always (handler renotifiedSigned.state)
        (World.fresh ⟨1000000, by decide⟩) cfg ∧
      Delivered "aa" "d.io" cfg.hist.state ∧
      Steps semantics (fun h ev => ¬ Renotifies "aa" "d.io" h ev)
        (handler renotifiedSigned.state) cfg cfg' ∧
      cfg'.hist.log.any (fun ev => ev.thread = 5 && (queuedDeliveries ev).isSome) = true ∧
      ¬ Claimable "aa" "d.io" cfg'.hist.state := by
  have hrun : ((renotifiedRun always webhookSent).bind fun cfg =>
      (replay semantics (fun h ev => ¬ Renotifies "aa" "d.io" h ev) (handler renotifiedSigned.state)
        reportedAgain cfg).filter fun cfg' => decide (Delivered "aa" "d.io" cfg.hist.state) &&
          cfg'.hist.log.any fun ev => ev.thread = 5 && (queuedDeliveries ev).isSome).isSome := by
    decide +kernel
  obtain ⟨cfg', hrun⟩ := Option.isSome_iff_exists.mp hrun
  obtain ⟨cfg, hsent, hagain⟩ := Option.bind_eq_some_iff.mp hrun
  obtain ⟨hagain, hchecked⟩ := Option.filter_eq_some_iff.mp hagain
  rw [Bool.and_eq_true] at hchecked
  have hreach := replay_steps hsent
  have hsteps := replay_steps hagain
  have hdelivered := of_decide_eq_true hchecked.1
  exact ⟨cfg, cfg', hreach, hdelivered, hsteps, hchecked.2,
    (delivered_once hreach hdelivered).1 cfg' hsteps⟩

/-- The webhook was sent, its row was cleaned up, and the client's second report
queues it again. -/
theorem sent_webhook_queued_again :
    ∃ cfg cfg' : Server,
      Reachable semantics always (handler renotifiedSigned.state)
        (World.fresh ⟨1000000, by decide⟩) cfg ∧
      Steps semantics always (handler renotifiedSigned.state) cfg cfg' ∧
      cfg'.request 5 = some .cleanupOldWebhookDeliveries ∧
      cfg'.request 6 = some clientReportsAgain ∧
      Delivered "aa" "d.io" cfg.hist.state ∧ Claimable "aa" "d.io" cfg'.hist.state := by
  have hbefore : (renotifiedRun always webhookSent).any (fun cfg =>
      decide (Delivered "aa" "d.io" cfg.hist.state)) = true := by decide +kernel
  have hafter : (renotifiedRun always
      (webhookSent ++ (cleanedUp ++ serve clientReportsAgain ++ calls 6 7))).any (fun cfg' =>
        decide (∃ r ∈ cfg'.hist.state.payments.webhookDeliveries.rows,
          r.IsOf "aa" "d.io" ∧ r.succeededAt = none)) = true := by decide +kernel
  obtain ⟨cfg, cfg', hreach, hsteps, _, hserved, hdelivered, hqueued⟩ :=
    steps_of_replay hbefore hafter
  exact ⟨cfg, cfg', hreach, hsteps, hserved 5, hserved 6, of_decide_eq_true hdelivered,
    claimable_iff.mpr (of_decide_eq_true hqueued)⟩

end Example

end BlinkLnurl
