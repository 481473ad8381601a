import BlinkLnurl.Lib.Trace
import BlinkLnurl.Repository.DeliveryEffects

/-!
# What outcome reports reach

Workers report what became of a delivery by its row id, at any time after they
took it. SQLite gives a new row the id one above the largest that is present,
so once the last row is deleted its id is given again (`SparesTaken` is what
must not happen).
-/

namespace BlinkLnurl

open Lts Rel WebhookDeliveries WebhookWrite

/-- The row of a delivery, as it was taken. -/
structure WebhookDelivery.IsAbout (d : WebhookDelivery) (r : WebhookDeliveryRow) : Prop where
  identifier : r.delivery.identifier = d.identifier
  domain : r.delivery.domain = d.domain
  createdAt : r.createdAt = d.createdAt

structure Reports where
  deliveries : WebhookDeliveries
  clock : Int
  /-- What takes have answered with. -/
  taken : List WebhookDelivery

def Reports.empty : Reports := ⟨.empty, 0, []⟩

/-- The write reports what became of deliveries of one take: success, failure,
parking and deletion of one of them, the unclaim of all that had no permit. -/
def WebhookWrite.IsOutcome (ds : List WebhookDelivery) : WebhookWrite → Prop
  | updateWebhookDeliverySuccess id _ _ => ds.map WebhookDelivery.id = [id]
  | updateWebhookDeliveryFailure id _ _ _ _ _ => ds.map WebhookDelivery.id = [id]
  | unclaimWebhookDeliveries ids => ds.map WebhookDelivery.id = ids
  | deleteWebhookDeliveriesOlderThan _ => False
  | deleteWebhookDelivery id => ds.map WebhookDelivery.id = [id]
  | parkWebhookDelivery id => ds.map WebhookDelivery.id = [id]

inductive ReportEvent
  | insert (now : Int) (deliveries : List NewWebhookDelivery)
  | take (now : Int) (taken : List WebhookDelivery)
  | cleanup (now before : Int)
  | report (now : Int) (ds : List WebhookDelivery) (w : WebhookWrite)

inductive ReportStep : Reports → ReportEvent → Reports → Prop
  | insert {q : Reports} {now : Int} {deliveries : List NewWebhookDelivery} :
      q.clock ≤ now →
      ReportStep q (.insert now deliveries) ⟨insertAll now deliveries q.deliveries, now, q.taken⟩
  | take {q : Reports} {now : Int} {taken : List WebhookDelivery} {t' : WebhookDeliveries} :
      q.clock ≤ now → TakesPending now q.deliveries taken t' →
      ReportStep q (.take now taken) ⟨t', now, taken ++ q.taken⟩
  | cleanup {q : Reports} {now before : Int} :
      q.clock ≤ now →
      ReportStep q (.cleanup now before)
        ⟨(deleteWebhookDeliveriesOlderThan before q.deliveries).2, now, q.taken⟩
  | report {q : Reports} {now : Int} {ds : List WebhookDelivery} {w : WebhookWrite} :
      q.clock ≤ now → ds ⊆ q.taken → w.IsOutcome ds →
      ReportStep q (.report now ds w) ⟨(w.run q.deliveries).2, now, q.taken⟩

/-- The rows a write changes or removes are those of the deliveries it is
about. -/
def WebhookWrite.Reaches (ds : List WebhookDelivery) (t : WebhookDeliveries) (w : WebhookWrite) :
    Prop :=
  ∀ r ∈ t, w.after r ≠ some r →
    (∃ d ∈ ds, d.id = r.id) ∧ ∀ d ∈ ds, d.id = r.id → d.IsAbout r

/-- Whatever may be reported next reaches what it is about. -/
def Reports.Reach (q : Reports) : Prop :=
  ∀ now ds w q', ReportStep q (.report now ds w) q' → w.Reaches ds q.deliveries

/-- The insert gives no new row the id of a delivery that was taken, unless it is
about the same payment and domain and created at the same time. -/
def Reports.SparesTaken (q : Reports) (now : Int) (deliveries : List NewWebhookDelivery) : Prop :=
  ∀ r ∈ insertAll now deliveries q.deliveries, r ∉ q.deliveries →
    ∀ d ∈ q.taken, d.id = r.id → d.IsAbout r

instance (d : WebhookDelivery) (r : WebhookDeliveryRow) : Decidable (d.IsAbout r) :=
  decidable_of_iff (r.delivery.identifier = d.identifier ∧ r.delivery.domain = d.domain ∧
    r.createdAt = d.createdAt) ⟨fun h => ⟨h.1, h.2.1, h.2.2⟩, fun h => ⟨h.1, h.2, h.3⟩⟩

instance (q : Reports) (now : Int) (deliveries : List NewWebhookDelivery) :
    Decidable (q.SparesTaken now deliveries) :=
  inferInstanceAs (Decidable (∀ r ∈ (insertAll now deliveries q.deliveries).rows,
    r ∉ q.deliveries.rows → ∀ d ∈ q.taken, d.id = r.id → d.IsAbout r))

/-- A step whose inserts do so. -/
def SparingStep (q : Reports) (e : ReportEvent) (q' : Reports) : Prop :=
  ReportStep q e q' ∧ ∀ now deliveries, e = .insert now deliveries → q.SparesTaken now deliveries

/-- The rows under the ids of taken deliveries are those that were taken. -/
def Reports.Own (q : Reports) : Prop :=
  ∀ d ∈ q.taken, ∀ r ∈ q.deliveries, d.id = r.id → d.IsAbout r

section Reports

variable {q q' : Reports} {e : ReportEvent} {es : List ReportEvent} {w : WebhookWrite}
  {ds : List WebhookDelivery} {r : WebhookDeliveryRow}

/-- A report changes no other row than those of the ids it names. -/
theorem named_of_after (hout : w.IsOutcome ds) (hchange : w.after r ≠ some r) :
    ∃ d ∈ ds, d.id = r.id := by
  have hnamed : r.id ∈ ds.map WebhookDelivery.id := by
    cases w with
    | updateWebhookDeliverySuccess id =>
        rw [show ds.map WebhookDelivery.id = [id] from hout, List.mem_singleton]
        by_contra hne
        exact hchange (congrArg some (if_neg hne))
    | updateWebhookDeliveryFailure id =>
        rw [show ds.map WebhookDelivery.id = [id] from hout, List.mem_singleton]
        by_contra hne
        exact hchange (congrArg some (if_neg hne))
    | unclaimWebhookDeliveries ids =>
        rw [show ds.map WebhookDelivery.id = ids from hout]
        by_contra hne
        exact hchange (congrArg some (if_neg hne))
    | deleteWebhookDeliveriesOlderThan before => exact hout.elim
    | deleteWebhookDelivery id =>
        rw [show ds.map WebhookDelivery.id = [id] from hout, List.mem_singleton]
        by_contra hne
        exact hchange (if_neg hne)
    | parkWebhookDelivery id =>
        rw [show ds.map WebhookDelivery.id = [id] from hout, List.mem_singleton]
        by_contra hne
        exact hchange (congrArg some (if_neg hne))
  exact List.mem_map.mp hnamed

theorem reach_of_own (hown : q.Own) : q.Reach := by
  intro now ds w q' hstep r hr hchange
  cases hstep with
  | report _ htaken hout =>
      exact ⟨named_of_after hout hchange, fun d hd hid => hown d (htaken hd) r hr hid⟩

/-- The rows a table keeps from another are about the same. -/
theorem own_of_kept {t' : WebhookDeliveries} {now : Int} (hown : q.Own)
    (hkept : ∀ x ∈ t', ∃ r ∈ q.deliveries, r.Kept x) : Reports.Own ⟨t', now, q.taken⟩ := by
  intro d hd x hx hid
  obtain ⟨r, hr, hrx⟩ := hkept x hx
  obtain ⟨hidentifier, hdomain, hcreated⟩ := hown d hd r hr (hid.trans hrx.id)
  exact ⟨hrx.delivery ▸ hidentifier, hrx.delivery ▸ hdomain, hrx.createdAt.trans hcreated⟩

theorem ReportStep.own (hown : q.Own) (h : SparingStep q e q') : q'.Own := by
  obtain ⟨hstep, hspares⟩ := h
  cases hstep with
  | @insert now deliveries _ =>
      intro d hd r hr hid
      by_cases hold : r ∈ q.deliveries
      · exact hown d hd r hold hid
      · exact hspares now deliveries rfl r hr hold d hd hid
  | @take now taken t' _ htakes =>
      have hold : Reports.Own ⟨t', now, q.taken⟩ := own_of_kept hown fun x hx => by
        obtain ⟨r, hr, hkept, _⟩ := htakes.kept hx
        exact ⟨r, hr, hkept⟩
      intro d hd x hx hid
      rcases List.mem_append.mp hd with hnew | hd
      · -- the row under the id of what was just taken is the row that was taken
        obtain ⟨r, hr, _, rfl⟩ := htakes.row hnew
        obtain ⟨s, hs, hsx, _⟩ := htakes.kept hx
        obtain rfl : r = s := eq_of_id hr hs (hid.trans hsx.id)
        exact ⟨congrArg NewWebhookDelivery.identifier hsx.delivery,
          congrArg NewWebhookDelivery.domain hsx.delivery, hsx.createdAt⟩
      · exact hold d hd x hx hid
  | @cleanup now before _ =>
      refine own_of_kept hown fun x hx => ?_
      exact ⟨x, (Table.mem_delete.mp hx).1, .refl x⟩
  | report =>
      refine own_of_kept hown fun x hx => ?_
      obtain ⟨r, hr, hkept, _⟩ := run_kept hx
      exact ⟨r, hr, hkept⟩

theorem run_own (h : Run SparingStep .empty es q) : q.Own :=
  h.invariant (fun hown hstep => ReportStep.own hown hstep) fun _ hd => absurd hd List.not_mem_nil

/-- An insert that gives the id of a taken delivery to another row lets the
report of its success reach that row. -/
theorem sparesTaken_of_reach {now : Int} {deliveries : List NewWebhookDelivery}
    (hstep : ReportStep q (.insert now deliveries) q') (hreach : q'.Reach) :
    q.SparesTaken now deliveries := by
  cases hstep with
  | insert =>
      intro r hr hnew d hd hid
      obtain ⟨rows, _, hrows⟩ := insertAll_numbered now deliveries q.deliveries
      have hr' := hr
      rw [hrows] at hr'
      rcases mem_insertNumbered hr' with hold | ⟨row, _, hrow, _⟩
      · exact absurd hold hnew
      · have hpending : r.succeededAt = none := by rw [hrow]; rfl
        have hsuccess : (WebhookWrite.updateWebhookDeliverySuccess d.id now "").IsOutcome [d] := rfl
        have hchange :
            (WebhookWrite.updateWebhookDeliverySuccess d.id now "").after r ≠ some r := by
          rw [after, if_pos hid.symm]
          intro hsame
          have hsucceeded := congrArg WebhookDeliveryRow.succeededAt (Option.some.inj hsame)
          rw [hpending] at hsucceeded
          cases hsucceeded
        have hreaches := hreach now [d] _ _
          (.report (le_refl now) (List.cons_subset.mpr ⟨hd, List.nil_subset _⟩) hsuccess)
        exact (hreaches r hr hchange).2 d (List.mem_singleton_self d) hid

/-- In a run whose inserts give no new row the id of a taken delivery, every
report reaches the row it is about; and an insert that does not is followed by
a report that does not. -/
theorem reports_reach (h : Run SparingStep .empty es q) :
    q.Reach ∧ ∀ now deliveries q', ReportStep q (.insert now deliveries) q' →
      (q'.Reach ↔ q.SparesTaken now deliveries) := by
  have hown := run_own h
  refine ⟨reach_of_own hown, fun now deliveries q' hstep => ?_⟩
  constructor
  · exact sparesTaken_of_reach hstep
  · intro hspares
    refine reach_of_own (ReportStep.own hown ⟨hstep, ?_⟩)
    intro now' deliveries' heq
    obtain ⟨rfl, rfl⟩ := ReportEvent.insert.inj heq
    exact hspares

/-! ## Examples -/

/-- A payment of `d.io` at a time. -/
def paymentAt (paymentHash : String) (timestamp : Int) : NewWebhookDelivery :=
  ⟨paymentHash, "d.io", ⟨paymentHash, "lnbc1", "00", some 10, none, none, timestamp⟩⟩

/-- The delivery of it that is taken first. -/
def takenAt (paymentHash : String) (timestamp : Int) : WebhookDelivery where
  id := 1
  identifier := paymentHash
  domain := "d.io"
  url := none
  payload := (paymentAt paymentHash timestamp).payload
  createdAt := timestamp
  retryCount := 0
  nextRetryAt := timestamp

/-- A delivery is still there, after 90 days, when a worker takes it. -/
def takenLate : List ReportEvent :=
  [.insert 400000 [paymentAt "aa" 400000], .take 7776400000 [takenAt "aa" 400000]]

theorem take_computed {now : Int} (h : q.clock ≤ now) :
    ReportStep q (.take now (takePendingWebhookDeliveries now q.deliveries).1)
      ⟨(takePendingWebhookDeliveries now q.deliveries).2, now,
        (takePendingWebhookDeliveries now q.deliveries).1 ++ q.taken⟩ :=
  .take h (takesPending_take _ _)

/-- Before its outcome is in, another payment is queued, and the clean-up deletes the row. -/
def queuedBeside : List ReportEvent :=
  takenLate ++ [.insert 7776400001 [paymentAt "bb" 7776400001], .cleanup 7776400002 400001]

/-- The new row was numbered past the one that was taken: the late report reaches nothing. -/
theorem reports_reach_taken :
    ∃ q : Reports, Run SparingStep .empty queuedBeside q ∧
      (∃ r ∈ q.deliveries, r.id = 2 ∧ r.succeededAt = none) ∧
      q.taken = [takenAt "aa" 400000] ∧ q.Reach := by
  have hrun : Run SparingStep .empty queuedBeside _ :=
    (((@Run.single _ _ SparingStep _ _ _ ⟨.insert (by decide), fun _ _ _ _ _ _ _ hd =>
      absurd hd List.not_mem_nil⟩).snoc ⟨take_computed (by decide), fun _ _ h => nomatch h⟩).snoc
      ⟨.insert (by decide), fun now deliveries h => by
        obtain ⟨rfl, rfl⟩ := ReportEvent.insert.inj h
        decide⟩).snoc ⟨.cleanup (by decide), fun _ _ h => nomatch h⟩
  obtain ⟨hreach, _⟩ := reports_reach hrun
  exact ⟨_, hrun, ⟨_, List.mem_cons_self, rfl, rfl⟩, by rfl, hreach⟩

/-- The clean-up deletes the row before the worker has its answer, and the next
payment is given the id. -/
def rowIdReused : List ReportEvent :=
  takenLate ++ [.cleanup 7776400001 400001, .insert 7776400002 [paymentAt "bb" 7776400002]]

/-- The report of the first payment's success marks the second payment's
delivery as sent. -/
theorem report_hits_another_payment :
    ∃ q q' : Reports, Run ReportStep .empty rowIdReused q ∧
      ReportStep q (.report 7776400003 [takenAt "aa" 400000]
        (.updateWebhookDeliverySuccess 1 7776400000 "https://d.io/hook")) q' ∧
      (∃ r ∈ q.deliveries, r.delivery.identifier = "bb" ∧ r.succeededAt = none) ∧
      (∃ r ∈ q'.deliveries, r.delivery.identifier = "bb" ∧ r.succeededAt = some 7776400000) ∧
      ¬ q.Reach := by
  have hrun : Run ReportStep .empty rowIdReused _ :=
    (((Run.single (.insert (by decide))).snoc (take_computed (by decide))).snoc
      (.cleanup (by decide))).snoc (.insert (by decide))
  refine ⟨_, _, hrun, .report (by decide) (by decide) rfl, ⟨_, List.mem_cons_self, rfl, rfl⟩,
    ⟨_, List.mem_cons_self, rfl, rfl⟩, fun hreach => ?_⟩
  have hreaches := hreach 7776400003 [takenAt "aa" 400000]
    (.updateWebhookDeliverySuccess 1 7776400000 "https://d.io/hook") _
    (.report (by decide) (by decide) rfl)
  obtain ⟨_, habout⟩ := hreaches _ List.mem_cons_self (by decide)
  have hidentifier := (habout _ (List.mem_singleton_self _) rfl).identifier
  exact absurd hidentifier (by decide)

end Reports

end BlinkLnurl
