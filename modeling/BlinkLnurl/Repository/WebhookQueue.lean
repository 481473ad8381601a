import BlinkLnurl.Lib.Trace
import BlinkLnurl.Repository.DeliveryEffects

/-!
# Safety of the delivery queue

The queue as any number of workers see it: each operation is one atomic step,
in any order, on a clock that does not go back. Whoever reports an outcome need
not hold the delivery any more, so every write is possible at any time. Row ids
are never given twice.
-/

namespace BlinkLnurl

open Lts PaymentStore Rel WebhookDeliveries WebhookWrite

structure Queue where
  deliveries : WebhookDeliveries
  clock : Int
  /-- The row ids given so far. -/
  issued : List Nat

/-- An empty table. -/
def Queue.empty : Queue := ⟨.empty, 0, []⟩

inductive QueueEvent
  | insert (now : Int) (rows : List (Nat × NewWebhookDelivery))
  | take (now : Int) (taken : List WebhookDelivery)
  | write (now : Int) (w : WebhookWrite)

namespace QueueEvent

/-- The reading of the clock. -/
def now : QueueEvent → Int
  | insert now _ => now
  | take now _ => now
  | write now _ => now

/-- A failure, an unclaim or a parking of the row `k`. -/
def Releases : QueueEvent → Nat → Prop
  | write _ w, k => w.Releases k
  | _, _ => False

end QueueEvent

/-- A reading of the clock: not before the last, and later than one lease after
the epoch. -/
structure Queue.Reads (q : Queue) (now : Int) : Prop where
  later : q.clock ≤ now
  late : claimLease < now

/-- Row ids that were never given before. -/
structure Queue.Gives (q : Queue) (ids : List Nat) : Prop where
  nodup : ids.Nodup
  fresh : ∀ id ∈ ids, id ∉ q.issued

inductive QueueStep : Queue → QueueEvent → Queue → Prop
  | insert {q : Queue} {now : Int} {rows : List (Nat × NewWebhookDelivery)} :
      q.Reads now → q.Gives (rows.map Prod.fst) →
      QueueStep q (.insert now rows)
        ⟨insertNumbered now rows q.deliveries, now, rows.map Prod.fst ++ q.issued⟩
  | take {q : Queue} {now : Int} {taken : List WebhookDelivery} {t' : WebhookDeliveries} :
      q.Reads now → TakesPending now q.deliveries taken t' →
      QueueStep q (.take now taken) ⟨t', now, q.issued⟩
  | write {q : Queue} {now : Int} {w : WebhookWrite} :
      q.Reads now → QueueStep q (.write now w) ⟨(w.run q.deliveries).2, now, q.issued⟩

/-- The stored rows have ids that were given, and there is one for a payment
and a domain. -/
structure Queue.Sound (q : Queue) : Prop where
  issued : ∀ r ∈ q.deliveries, r.id ∈ q.issued
  pairs : OnePerPair q.deliveries

section Step

variable {q q' : Queue} {e : QueueEvent} {es : List QueueEvent} {x : WebhookDeliveryRow} {k : Nat}

/-- What a step leaves under an id that was given: the row that was there, with
its claim, unless it was claimed now or is released. -/
theorem QueueStep.row (h : QueueStep q e q') (hx : x ∈ q'.deliveries) (hk : x.id ∈ q.issued) :
    ∃ r ∈ q.deliveries, r.Kept x ∧
      (e.Releases r.id ∨ x.claimedAt = r.claimedAt ∨ x.claimedAt = some e.now) := by
  cases h with
  | insert _ hgives =>
      rcases mem_insertNumbered hx with hold | ⟨row, hrow, rfl, _⟩
      · exact ⟨x, hold, .refl x, Or.inr (Or.inl rfl)⟩
      · exact absurd hk (hgives.fresh _ (List.mem_map_of_mem hrow))
  | take _ htakes =>
      obtain ⟨r, hr, hkept, hclaim⟩ := htakes.kept hx
      exact ⟨r, hr, hkept, Or.inr hclaim⟩
  | @write _ w _ =>
      obtain ⟨r, hr, hkept, hafter⟩ := WebhookWrite.run_kept hx
      refine ⟨r, hr, hkept, ?_⟩
      by_cases hrel : w.Releases r.id
      · exact Or.inl hrel
      · exact Or.inr (Or.inl (after_claimedAt hafter hrel))

theorem QueueStep.issued_subset (h : QueueStep q e q') : q.issued ⊆ q'.issued := by
  cases h with
  | insert => exact List.subset_append_right _ _
  | take => exact List.Subset.refl _
  | write => exact List.Subset.refl _

theorem QueueStep.clock (h : QueueStep q e q') : q.clock ≤ e.now ∧ q'.clock = e.now := by
  cases h with
  | insert hreads => exact ⟨hreads.later, rfl⟩
  | take hreads => exact ⟨hreads.later, rfl⟩
  | write hreads => exact ⟨hreads.later, rfl⟩

theorem sound_of_kept {t' : WebhookDeliveries} {now : Int} (hq : q.Sound)
    (hkept : ∀ x ∈ t', ∃ r ∈ q.deliveries, r.Kept x) : Queue.Sound ⟨t', now, q.issued⟩ where
  issued := fun x hx => by
    obtain ⟨r, hr, hrx⟩ := hkept x hx
    exact hrx.id ▸ hq.issued r hr
  pairs := onePerPair_of_kept hq.pairs hkept

theorem QueueStep.sound (hq : q.Sound) (h : QueueStep q e q') : q'.Sound := by
  cases h with
  | insert _ hgives =>
      refine ⟨fun x hx => ?_, onePerPair_insertNumbered hq.pairs⟩
      rcases mem_insertNumbered hx with hold | ⟨row, hrow, rfl, _⟩
      · exact List.mem_append_right _ (hq.issued x hold)
      · exact List.mem_append_left _ (List.mem_map_of_mem hrow)
  | take _ htakes =>
      refine sound_of_kept hq fun x hx => ?_
      obtain ⟨r, hr, hkept, _⟩ := htakes.kept hx
      exact ⟨r, hr, hkept⟩
  | write =>
      refine sound_of_kept hq fun x hx => ?_
      obtain ⟨r, hr, hkept, _⟩ := WebhookWrite.run_kept hx
      exact ⟨r, hr, hkept⟩

theorem Queue.sound_empty : Queue.empty.Sound :=
  ⟨fun _ hr => absurd hr List.not_mem_nil, fun _ hr => absurd hr List.not_mem_nil⟩

end Step

/-! ## What holds of a row over a run -/

section Row

variable {q q' : Queue} {e : QueueEvent} {es : List QueueEvent} {k : Nat}

/-- The row `k` was given and, if it is stored, has succeeded. -/
structure Queue.Succeeded (k : Nat) (q : Queue) : Prop where
  issued : k ∈ q.issued
  row : ∀ r ∈ q.deliveries, r.id = k → r.succeededAt ≠ none

theorem QueueStep.succeeded (hq : q.Succeeded k) (h : QueueStep q e q') : q'.Succeeded k := by
  refine ⟨h.issued_subset hq.issued, fun x hx hid hnone => ?_⟩
  obtain ⟨r, hr, hkept, _⟩ := h.row hx (hid ▸ hq.issued)
  exact hq.row r hr (hkept.id.symm.trans hid) (hkept.succeeded hnone)

/-- The row `k` was given and, if it is stored, has been claimed at `since` or
later and not released. -/
structure Queue.Held (k : Nat) (since : Int) (q : Queue) : Prop where
  issued : k ∈ q.issued
  clock : since ≤ q.clock
  row : ∀ r ∈ q.deliveries, r.id = k → ∃ c, r.claimedAt = some c ∧ since ≤ c

theorem QueueStep.held {since : Int} (hq : q.Held k since) (hrel : ¬ e.Releases k)
    (h : QueueStep q e q') : q'.Held k since := by
  obtain ⟨hlater, hclock⟩ := h.clock
  have hsince := hq.clock
  refine ⟨h.issued_subset hq.issued, by omega, fun x hx hid => ?_⟩
  obtain ⟨r, hr, hkept, hclaim⟩ := h.row hx (hid ▸ hq.issued)
  have hrid : r.id = k := hkept.id.symm.trans hid
  rcases hclaim with hreleased | hsame | hnow
  · exact absurd (hrid ▸ hreleased) hrel
  · rw [hsame]
    exact hq.row r hr hrid
  · exact ⟨e.now, hnow, by omega⟩

/-- The row that was answered with is held from then on. -/
theorem held_of_take {now : Int} {taken : List WebhookDelivery} {d : WebhookDelivery}
    (hq : q.Sound) (h : QueueStep q (.take now taken) q') (hd : d ∈ taken) : q'.Held d.id now := by
  cases h with
  | take _ htakes =>
      obtain ⟨r, hr, _, hgiven⟩ := htakes.row hd
      have hid : d.id = r.id := congrArg WebhookDelivery.id hgiven
      refine ⟨hid ▸ hq.issued r hr, le_refl now, fun x hx hx' => ?_⟩
      exact ⟨now, htakes.claimedAt hd hx hx', le_refl now⟩

/-- A row that is held is not taken before its lease is over. -/
theorem lease_of_take {now since : Int} {taken : List WebhookDelivery} {d : WebhookDelivery}
    (hq : q.Held d.id since) (h : QueueStep q (.take now taken) q') (hd : d ∈ taken) :
    claimLease < now - since := by
  cases h with
  | take _ htakes =>
      obtain ⟨r, hr, hmay, hgiven⟩ := htakes.row hd
      obtain ⟨c, hclaim, hsince⟩ := hq.row r hr (congrArg WebhookDelivery.id hgiven).symm
      rw [mayBeTaken, hclaim, Option.getD_some, Bool.and_eq_true, decide_eq_true_eq] at hmay
      have hfree := hmay.2
      omega

end Row

/-! ## Safety -/

/-- A worker may be given the row at `now`. -/
structure WebhookDeliveryRow.Eligible (now : Int) (r : WebhookDeliveryRow) : Prop where
  pending : r.succeededAt = none
  due : r.nextRetryAt ≤ now
  free : ∀ c, r.claimedAt = some c → claimLease < now - c

/-- After the first lease since the epoch, `COALESCE(claimed_at, 0)` says that
nobody holds the row. -/
theorem mayBeTaken_iff {now : Int} {r : WebhookDeliveryRow} (hlate : claimLease < now) :
    mayBeTaken now r = true ↔ r.Eligible now := by
  rw [mayBeTaken, Bool.and_eq_true, Bool.and_eq_true, decide_eq_true_eq, decide_eq_true_eq,
    Option.isNone_iff_eq_none]
  cases hclaim : r.claimedAt with
  | none =>
      constructor
      · intro ⟨⟨hdue, hpending⟩, _⟩
        exact ⟨hpending, hdue, fun c hc => nomatch hclaim.symm.trans hc⟩
      · intro h
        rw [Option.getD_none]
        exact ⟨⟨h.due, h.pending⟩, by omega⟩
  | some c =>
      rw [Option.getD_some]
      constructor
      · intro ⟨⟨hdue, hpending⟩, hfree⟩
        refine ⟨hpending, hdue, fun c' hc' => ?_⟩
        obtain rfl := Option.some.inj (hclaim.symm.trans hc')
        omega
      · intro h
        have hfree := h.free c hclaim
        exact ⟨⟨h.due, h.pending⟩, by omega⟩

section Runs

variable {q : Queue} {es : List QueueEvent}

theorem queue_sound (h : Run QueueStep .empty es q) : q.Sound :=
  h.invariant (fun hq hstep => hstep.sound hq) Queue.sound_empty

/-- A row that has succeeded is not taken any more. -/
theorem succeeded_not_taken {q' : Queue} {es' : List QueueEvent} {r : WebhookDeliveryRow}
    (hq : q.Sound) (hr : r ∈ q.deliveries) (hdone : r.succeededAt ≠ none)
    (h : Run QueueStep q es' q') {now : Int} {taken : List WebhookDelivery}
    (htake : QueueEvent.take now taken ∈ es') {d : WebhookDelivery} (hd : d ∈ taken) :
    d.id ≠ r.id := by
  obtain ⟨before, after, rfl⟩ := List.append_of_mem htake
  obtain ⟨mid, hbefore, hrest⟩ := h.split
  obtain ⟨_, hstep, _⟩ := hrest.of_cons
  have hstart : q.Succeeded r.id := ⟨hq.issued r hr, fun x hx hid => eq_of_id hx hr hid ▸ hdone⟩
  have hmid : mid.Succeeded r.id := hbefore.invariant (fun hq hstep => hstep.succeeded hq) hstart
  intro hid
  cases hstep with
  | take _ htakes =>
      obtain ⟨x, hx, hmay, rfl⟩ := htakes.row hd
      rw [mayBeTaken, Bool.and_eq_true, Bool.and_eq_true, Option.isNone_iff_eq_none] at hmay
      exact hmid.row x hx hid hmay.1.2

/-- Two takes of one row are a lease apart, or it was released in between. -/
theorem lease_between {before mid after : List QueueEvent} {t₁ t₂ : Int}
    {taken₁ taken₂ : List WebhookDelivery} {d₁ d₂ : WebhookDelivery}
    (h : Run QueueStep .empty (before ++ .take t₁ taken₁ :: (mid ++ .take t₂ taken₂ :: after)) q)
    (h₁ : d₁ ∈ taken₁) (h₂ : d₂ ∈ taken₂) (hid : d₁.id = d₂.id) :
    claimLease < t₂ - t₁ ∨ ∃ e ∈ mid, e.Releases d₁.id := by
  by_cases hrel : ∃ e ∈ mid, e.Releases d₁.id
  · exact Or.inr hrel
  · push Not at hrel
    obtain ⟨q₁, hbefore, hrest⟩ := h.split
    obtain ⟨q₂, hfirst, hrest⟩ := hrest.of_cons
    obtain ⟨q₃, hmid, hrest⟩ := hrest.split
    obtain ⟨_, hsecond, _⟩ := hrest.of_cons
    have hheld : q₂.Held d₁.id t₁ := held_of_take (queue_sound hbefore) hfirst h₁
    have hheld : q₃.Held d₁.id t₁ :=
      hmid.keeps (fun hq hrel hstep => hstep.held hq hrel) hrel hheld
    exact Or.inl (lease_of_take (hid ▸ hheld) hsecond h₂)

/-- A take answers with one row of every domain that has an eligible one, an
eligible row that is due first, and with no other domain. -/
theorem take_one_of_domain {q' : Queue} {now : Int} {taken : List WebhookDelivery}
    (h : QueueStep q (.take now taken) q') (domain : String) :
    ((∃ r ∈ q.deliveries, r.Eligible now ∧ r.delivery.domain = domain) →
      ∃ f ∈ q.deliveries, f.Eligible now ∧ f.delivery.domain = domain ∧
        taken.filter (fun d => d.domain = domain) = [f.given] ∧
        ∀ r ∈ q.deliveries, r.Eligible now → r.delivery.domain = domain →
          f.nextRetryAt ≤ r.nextRetryAt) ∧
    ∀ d ∈ taken, d.domain = domain →
    ∃ r ∈ q.deliveries, r.Eligible now ∧ r.delivery.domain = domain := by
  cases h with
  | take hreads htakes =>
      have hmay : ∀ r : WebhookDeliveryRow, mayBeTaken now r = true ↔ r.Eligible now :=
        fun r => mayBeTaken_iff hreads.late
      constructor
      · intro ⟨r, hr, heligible, hdomain⟩
        subst hdomain
        obtain ⟨f, hf, hfmay, hfdomain, hone, hmin⟩ :=
          htakes.one_of_domain hr ((hmay r).mpr heligible)
        exact ⟨f, hf, (hmay f).mp hfmay, hfdomain, hone,
          fun r' hr' heligible' => hmin r' hr' ((hmay r').mpr heligible')⟩
      · intro d hd hdomain
        obtain ⟨r, hr, hrmay, rfl⟩ := htakes.row hd
        exact ⟨r, hr, (hmay r).mp hrmay, hdomain⟩

/-- In every run of the queue: one row for a payment and a domain; no take of a
row that succeeded; a lease between two takes of a row that is not released;
and each take serves every domain that has something to send, once. -/
theorem delivery_queue_safe (h : Run QueueStep .empty es q) :
    (∀ r ∈ q.deliveries, ∀ r' ∈ q.deliveries, r.SamePair r' → r = r') ∧
    (∀ r ∈ q.deliveries, r.succeededAt ≠ none → ∀ es' q', Run QueueStep q es' q' →
      ∀ now taken, QueueEvent.take now taken ∈ es' → ∀ d ∈ taken, d.id ≠ r.id) ∧
    (∀ before mid after t₁ t₂ taken₁ taken₂,
      es = before ++ .take t₁ taken₁ :: (mid ++ .take t₂ taken₂ :: after) →
        ∀ d₁ ∈ taken₁, ∀ d₂ ∈ taken₂, d₁.id = d₂.id →
          claimLease < t₂ - t₁ ∨ ∃ e ∈ mid, e.Releases d₁.id) ∧
    ∀ now taken q', QueueStep q (.take now taken) q' → ∀ domain,
      ((∃ r ∈ q.deliveries, r.Eligible now ∧ r.delivery.domain = domain) →
        ∃ f ∈ q.deliveries, f.Eligible now ∧ f.delivery.domain = domain ∧
          taken.filter (fun d => d.domain = domain) = [f.given] ∧
          ∀ r ∈ q.deliveries, r.Eligible now → r.delivery.domain = domain →
            f.nextRetryAt ≤ r.nextRetryAt) ∧
      ∀ d ∈ taken, d.domain = domain →
        ∃ r ∈ q.deliveries, r.Eligible now ∧ r.delivery.domain = domain := by
  have hsound := queue_sound h
  refine ⟨hsound.pairs, ?_, ?_, ?_⟩
  · intro r hr hdone es' q' hrun now taken htake d hd
    exact succeeded_not_taken hsound hr hdone hrun htake hd
  · intro before mid after t₁ t₂ taken₁ taken₂ hes d₁ h₁ d₂ h₂ hid
    subst hes
    exact lease_between h h₁ h₂ hid
  · intro now taken q' hstep domain
    exact take_one_of_domain hstep domain

/-- A worker takes a delivery and does not report. Another takes it when the
lease is over, and then the first reports its success. -/
def lateReport : List QueueEvent :=
  let payload : WebhookPayload := ⟨"aa", "lnbc1", "00", some 10, none, none, 400000⟩
  let given : WebhookDelivery := ⟨1, "aa", "d.io", none, payload, 400000, 0, 400000⟩
  [.insert 400000 [(1, ⟨"aa", "d.io", payload⟩)], .take 400001 [given], .take 700002 [given],
    .write 700003 (.updateWebhookDeliverySuccess 1 700003 "https://d.io/hook")]

theorem delivery_queue_safe_late :
    ∃ q : Queue, Run QueueStep .empty lateReport q ∧ ∃ r ∈ q.deliveries,
      r.id = 1 ∧ r.succeededAt = some 700003 ∧
        ∀ es q', Run QueueStep q es q' → ∀ now taken, QueueEvent.take now taken ∈ es →
          ∀ d ∈ taken, d.id ≠ 1 := by
  have take : ∀ {q : Queue} {now : Int}, q.Reads now →
      QueueStep q (.take now (takePendingWebhookDeliveries now q.deliveries).1)
        ⟨(takePendingWebhookDeliveries now q.deliveries).2, now, q.issued⟩ :=
    fun h => .take h (takesPending_take _ _)
  have hrun : Run QueueStep .empty lateReport _ :=
    (((Run.single (.insert ⟨by decide, by decide⟩ ⟨by decide, by decide⟩)).snoc
      (take ⟨by decide, by decide⟩)).snoc (take ⟨by decide, by decide⟩)).snoc
      (.write ⟨by decide, by decide⟩)
  obtain ⟨_, hdone, _⟩ := delivery_queue_safe hrun
  refine ⟨_, hrun, _, List.mem_cons_self, rfl, rfl, ?_⟩
  exact hdone _ List.mem_cons_self (by decide)

end Runs

end BlinkLnurl
