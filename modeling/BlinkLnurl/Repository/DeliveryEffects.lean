import BlinkLnurl.Repository.Deliveries

/-!
# What the queue operations do to rows

One lemma says what each operation leaves in the table: a take claims the rows
it answers with (`TakesPending.mem_iff`), a write changes rows one by one
(`WebhookWrite.mem_run`), an insert adds rows for payments and domains that
have none (`mem_insertNumbered`). The properties of the queue are read off
these.
-/

namespace BlinkLnurl

open Rel

/-- What no operation on a stored row changes: what the delivery is about, and
that it succeeded. -/
structure WebhookDeliveryRow.Kept (r x : WebhookDeliveryRow) : Prop where
  id : x.id = r.id
  delivery : x.delivery = r.delivery
  createdAt : x.createdAt = r.createdAt
  succeeded : x.succeededAt = none → r.succeededAt = none

theorem WebhookDeliveryRow.Kept.refl (r : WebhookDeliveryRow) : r.Kept r :=
  ⟨rfl, rfl, rfl, fun h => h⟩

open WebhookDeliveryRow (Kept)

namespace WebhookDeliveries

variable {now : Int} {t t' : WebhookDeliveries} {taken : List WebhookDelivery}
  {r x : WebhookDeliveryRow}

/-- At most one row for a payment and a domain, sent or not. -/
def OnePerPair (t : WebhookDeliveries) : Prop := ∀ r ∈ t, ∀ r' ∈ t, r.SamePair r' → r = r'

/-! ## Taking -/

/-- The row as a claim at `now` leaves it. -/
def claimed (now : Int) (r : WebhookDeliveryRow) : WebhookDeliveryRow :=
  { r with claimedAt := some now }

/-- The rows that are answered with. -/
theorem TakesPending.row (h : TakesPending now t taken t') {d : WebhookDelivery} (hd : d ∈ taken) :
    ∃ r ∈ t, mayBeTaken now r = true ∧ d = r.given := by
  obtain ⟨order, hperm, _, htaken, _⟩ := h
  obtain ⟨r, hr, rfl⟩ := List.mem_map.mp (htaken.mem_iff.mp hd)
  obtain ⟨hrow, hmay⟩ := Table.mem_select.mp (hperm.mem_iff.mp (firstOfEachDomain_subset hr))
  exact ⟨r, hrow, hmay, rfl⟩

/-- A take claims the rows it answers with, and changes nothing else. -/
theorem TakesPending.mem_iff (h : TakesPending now t taken t') :
    x ∈ t' ↔ ∃ r ∈ t, x = if taken.any (fun d => d.id = r.id) then claimed now r else r := by
  obtain ⟨order, _, _, htaken, rfl⟩ := h
  have hany : ∀ r : WebhookDeliveryRow, taken.any (fun d => d.id = r.id) =
      (firstOfEachDomain order).any fun f => f.id = r.id := by
    intro r
    rw [htaken.any_eq, List.any_map]
    rfl
  refine Iff.trans mem_set (exists_congr fun r => and_congr_right fun _ => ?_)
  rw [hany r]
  exact eq_comm

theorem TakesPending.kept (h : TakesPending now t taken t') (hx : x ∈ t') :
    ∃ r ∈ t, r.Kept x ∧ (x.claimedAt = r.claimedAt ∨ x.claimedAt = some now) := by
  obtain ⟨r, hr, rfl⟩ := h.mem_iff.mp hx
  by_cases htaken : taken.any (fun d => d.id = r.id) = true
  · rw [if_pos htaken]
    exact ⟨r, hr, ⟨rfl, rfl, rfl, fun h => h⟩, Or.inr rfl⟩
  · rw [if_neg htaken]
    exact ⟨r, hr, .refl r, Or.inl rfl⟩

/-- A row that is answered with is claimed from then on. -/
theorem TakesPending.claimedAt (h : TakesPending now t taken t') {d : WebhookDelivery}
    (hd : d ∈ taken) (hx : x ∈ t') (hid : x.id = d.id) : x.claimedAt = some now := by
  obtain ⟨r, _, rfl⟩ := h.mem_iff.mp hx
  have hkept : (if taken.any (fun d => d.id = r.id) then claimed now r else r).id = r.id := by
    split <;> rfl
  have htaken : taken.any (fun d => d.id = r.id) = true :=
    List.any_eq_true.mpr ⟨d, hd, decide_eq_true (hid.symm.trans hkept)⟩
  rw [if_pos htaken]
  rfl

/-- A domain with a candidate is answered with exactly once, by a candidate that
is due first. -/
theorem TakesPending.one_of_domain (h : TakesPending now t taken t') (hr : r ∈ t)
    (hmay : mayBeTaken now r = true) :
    ∃ f ∈ t, mayBeTaken now f = true ∧ f.delivery.domain = r.delivery.domain ∧
      taken.filter (fun d => d.domain = r.delivery.domain) = [f.given] ∧
      ∀ r' ∈ t, mayBeTaken now r' = true → r'.delivery.domain = r.delivery.domain →
        f.nextRetryAt ≤ r'.nextRetryAt := by
  obtain ⟨order, hperm, hsorted, htaken, _⟩ := h
  have horder : ∀ {y : WebhookDeliveryRow}, y ∈ order ↔ y ∈ t ∧ mayBeTaken now y = true :=
    fun {y} => hperm.mem_iff.trans Table.mem_select
  obtain ⟨f, hf, hdomain, hmin⟩ := exists_firstOfEachDomain hsorted (horder.mpr ⟨hr, hmay⟩)
  obtain ⟨hft, hfmay⟩ := horder.mp (firstOfEachDomain_subset hf)
  refine ⟨f, hft, hfmay, hdomain, ?_, fun r' hr' hmay' => hmin r' (horder.mpr ⟨hr', hmay'⟩)⟩
  -- the others that are first are first of other domains
  have hone : (firstOfEachDomain order).filter (fun y => y.delivery.domain = r.delivery.domain) =
      [f] := by
    obtain ⟨front, back, hsplit⟩ := List.append_of_mem hf
    have hpairwise := @firstOfEachDomain_pairwise order
    rw [hsplit] at hpairwise ⊢
    obtain ⟨_, hback, hfront⟩ := List.pairwise_append.mp hpairwise
    have hfront : front.filter (fun y => y.delivery.domain = r.delivery.domain) = [] := by
      refine List.filter_eq_nil_iff.mpr fun y hy hdom => ?_
      exact hfront y hy f List.mem_cons_self ((of_decide_eq_true hdom).trans hdomain.symm)
    have hback : back.filter (fun y => y.delivery.domain = r.delivery.domain) = [] := by
      refine List.filter_eq_nil_iff.mpr fun y hy hdom => ?_
      exact (List.pairwise_cons.mp hback).1 y hy (hdomain.trans (of_decide_eq_true hdom).symm)
    rw [List.filter_append, List.filter_cons, hfront, hback, if_pos (decide_eq_true hdomain)]
    rfl
  have hgiven : ((firstOfEachDomain order).map WebhookDeliveryRow.given).filter
      (fun d => d.domain = r.delivery.domain) = [f.given] := by
    rw [List.filter_map]
    exact congrArg (List.map WebhookDeliveryRow.given) hone
  have hfiltered := htaken.filter fun d => decide (d.domain = r.delivery.domain)
  rw [hgiven] at hfiltered
  exact List.perm_singleton.mp hfiltered

end WebhookDeliveries

/-! ## Reporting -/

namespace WebhookWrite

open WebhookDeliveries

variable {t : WebhookDeliveries} {w : WebhookWrite} {r x : WebhookDeliveryRow}

/-- What a write leaves of a row; `none` where it deletes the row. -/
def after : WebhookWrite → WebhookDeliveryRow → Option WebhookDeliveryRow
  | updateWebhookDeliverySuccess id succeededAt url, r =>
      some (if r.id = id then { r with succeededAt := some succeededAt, url := some url } else r)
  | updateWebhookDeliveryFailure id retryCount nextRetryAt statusCode body url, r =>
      some (if r.id = id then
        { r with
          retryCount, nextRetryAt, claimedAt := none
          lastErrorStatusCode := statusCode, lastErrorBody := body, url := some url }
        else r)
  | unclaimWebhookDeliveries ids, r =>
      some (if r.id ∈ ids then { r with claimedAt := none } else r)
  | deleteWebhookDeliveriesOlderThan before, r => if r.createdAt < before then none else some r
  | deleteWebhookDelivery id, r => if r.id = id then none else some r
  | parkWebhookDelivery id, r =>
      some (if r.id = id then { r with nextRetryAt := parkedAt, claimedAt := none } else r)

theorem mem_set_iff {p : WebhookDeliveryRow → Bool} {f : WebhookDeliveryRow → WebhookDeliveryRow}
    (hf : WebhookDeliveryRow.KeepsDelivery f) {q : WebhookDeliveryRow → Prop} [DecidablePred q]
    (hp : ∀ r, p r = true ↔ q r) :
    x ∈ set p f hf t ↔ ∃ r ∈ t, some (if q r then f r else r) = some x := by
  refine Iff.trans mem_set (exists_congr fun r => and_congr_right fun _ => ?_)
  rw [Option.some_inj, Table.onRow]
  by_cases hq : q r
  · rw [if_pos hq, if_pos ((hp r).mpr hq)]
  · rw [if_neg hq, if_neg fun h => hq ((hp r).mp h)]

theorem mem_delete_iff {p : WebhookDeliveryRow → Bool} {q : WebhookDeliveryRow → Prop}
    [DecidablePred q] (hp : ∀ r, p r = true ↔ q r) :
    x ∈ t.delete p ↔ ∃ r ∈ t, (if q r then none else some r) = some x := by
  rw [Table.mem_delete]
  constructor
  · intro ⟨hx, hkept⟩
    refine ⟨x, hx, if_neg fun hq => ?_⟩
    rw [(hp x).mpr hq] at hkept
    exact nomatch hkept
  · intro ⟨r, hr, hafter⟩
    by_cases hq : q r
    · rw [if_pos hq] at hafter
      exact nomatch hafter
    · rw [if_neg hq] at hafter
      obtain rfl := Option.some.inj hafter
      exact ⟨hr, Bool.eq_false_iff.mpr fun hpr => hq ((hp r).mp hpr)⟩

/-- A write changes rows one by one. -/
theorem mem_run : x ∈ (w.run t).2 ↔ ∃ r ∈ t, w.after r = some x := by
  cases w with
  | updateWebhookDeliverySuccess =>
      refine mem_set_iff ?_ fun _ => decide_eq_true_iff
      exact fun _ => ⟨rfl, rfl, rfl, fun h => nomatch h⟩
  | updateWebhookDeliveryFailure =>
      refine mem_set_iff ?_ fun _ => decide_eq_true_iff
      exact fun _ => ⟨rfl, rfl, rfl, fun h => h⟩
  | unclaimWebhookDeliveries =>
      refine mem_set_iff ?_ fun _ => List.contains_iff_mem
      exact fun _ => ⟨rfl, rfl, rfl, fun h => h⟩
  | deleteWebhookDeliveriesOlderThan => exact mem_delete_iff fun _ => decide_eq_true_iff
  | deleteWebhookDelivery => exact mem_delete_iff fun _ => decide_eq_true_iff
  | parkWebhookDelivery =>
      refine mem_set_iff ?_ fun _ => decide_eq_true_iff
      exact fun _ => ⟨rfl, rfl, rfl, fun h => h⟩

theorem after_kept (h : w.after r = some x) : r.Kept x := by
  cases w with
  | updateWebhookDeliverySuccess id =>
      obtain rfl := Option.some.inj h
      split
      · exact ⟨rfl, rfl, rfl, fun h => nomatch h⟩
      · exact .refl r
  | updateWebhookDeliveryFailure id =>
      obtain rfl := Option.some.inj h
      split <;> exact ⟨rfl, rfl, rfl, fun h => h⟩
  | unclaimWebhookDeliveries ids =>
      obtain rfl := Option.some.inj h
      split <;> exact ⟨rfl, rfl, rfl, fun h => h⟩
  | parkWebhookDelivery id =>
      obtain rfl := Option.some.inj h
      split <;> exact ⟨rfl, rfl, rfl, fun h => h⟩
  | deleteWebhookDeliveriesOlderThan before =>
      rw [after] at h
      split at h
      · exact nomatch h
      · obtain rfl := Option.some.inj h
        exact .refl r
  | deleteWebhookDelivery id =>
      rw [after] at h
      split at h
      · exact nomatch h
      · obtain rfl := Option.some.inj h
        exact .refl r

theorem run_kept (hx : x ∈ (w.run t).2) :
    ∃ r ∈ t, r.Kept x ∧ w.after r = some x := by
  obtain ⟨r, hr, hafter⟩ := mem_run.mp hx
  exact ⟨r, hr, after_kept hafter, hafter⟩

/-- The write is a failure, an unclaim or a parking of the row `k`. -/
def Releases : WebhookWrite → Nat → Prop
  | updateWebhookDeliveryFailure id _ _ _ _ _, k => id = k
  | unclaimWebhookDeliveries ids, k => k ∈ ids
  | parkWebhookDelivery id, k => id = k
  | _, _ => False

/-- Nothing else takes a claim away. -/
theorem after_claimedAt (h : w.after r = some x) (hheld : ¬ w.Releases r.id) :
    x.claimedAt = r.claimedAt := by
  cases w with
  | updateWebhookDeliverySuccess id =>
      obtain rfl := Option.some.inj h
      split <;> rfl
  | updateWebhookDeliveryFailure id =>
      obtain rfl := Option.some.inj h
      rw [if_neg fun hid => hheld hid.symm]
  | unclaimWebhookDeliveries ids =>
      obtain rfl := Option.some.inj h
      have hid : r.id ∉ ids := hheld
      rw [if_neg hid]
  | parkWebhookDelivery id =>
      obtain rfl := Option.some.inj h
      rw [if_neg fun hid => hheld hid.symm]
  | deleteWebhookDeliveriesOlderThan before =>
      rw [after] at h
      split at h
      · exact nomatch h
      · obtain rfl := Option.some.inj h
        rfl
  | deleteWebhookDelivery id =>
      rw [after] at h
      split at h
      · exact nomatch h
      · obtain rfl := Option.some.inj h
        rfl

end WebhookWrite

/-! ## Inserting -/

namespace WebhookDeliveries

/-- The row of an `INSERT`. -/
def newDelivery (id : Nat) (now : Int) (delivery : NewWebhookDelivery) : WebhookDeliveryRow :=
  { id, delivery, createdAt := now, nextRetryAt := now }

/-- `insert_webhook_deliveries`, for one delivery that is given a row id. -/
def insertNumberedDelivery (now : Int) (t : WebhookDeliveries) (row : Nat × NewWebhookDelivery) :
    WebhookDeliveries :=
  if t.any fun r =>
      r.delivery.identifier = row.2.identifier && r.delivery.domain = row.2.domain then t
  else (t.insert (newDelivery row.1 now row.2)).getD t

/-- The same for a list. -/
def insertNumbered (now : Int) (rows : List (Nat × NewWebhookDelivery)) (t : WebhookDeliveries) :
    WebhookDeliveries := rows.foldl (insertNumberedDelivery now) t

variable {now : Int} {t : WebhookDeliveries} {row : Nat × NewWebhookDelivery}
  {rows : List (Nat × NewWebhookDelivery)} {r x : WebhookDeliveryRow}

/-- The row is about the payment and the domain of a delivery. -/
def IsFor (r : WebhookDeliveryRow) (d : NewWebhookDelivery) : Prop :=
  r.delivery.identifier = d.identifier ∧ r.delivery.domain = d.domain

/-- An insert leaves the table, or appends its row to it where there is none for
the payment and the domain. -/
theorem insertNumberedDelivery_cases :
    (insertNumberedDelivery now t row = t ∧
      ((∃ r ∈ t, IsFor r row.2) ∨ ∃ r ∈ t, r.id = row.1)) ∨
    (∀ x, x ∈ insertNumberedDelivery now t row ↔ x ∈ t ∨ x = newDelivery row.1 now row.2) ∧
      (∀ r ∈ t, ¬ IsFor r row.2) ∧ ∀ r ∈ t, r.id ≠ row.1 := by
  unfold insertNumberedDelivery
  split
  · rename_i hany
    obtain ⟨r, hr, hpair⟩ := Table.any_eq_true.mp hany
    rw [Bool.and_eq_true, decide_eq_true_eq, decide_eq_true_eq] at hpair
    exact Or.inl ⟨rfl, Or.inl ⟨r, hr, hpair⟩⟩
  · rename_i hany
    have hnone : ∀ r ∈ t, ¬ IsFor r row.2 := by
      intro r hr hpair
      refine hany (Table.any_eq_true.mpr ⟨r, hr, ?_⟩)
      rw [Bool.and_eq_true, decide_eq_true_eq, decide_eq_true_eq]
      exact hpair
    by_cases hid : ∃ r ∈ t, r.id = row.1
    · obtain ⟨r, hr, hid⟩ := hid
      refine Or.inl ⟨?_, Or.inr ⟨r, hr, hid⟩⟩
      have hrefused : t.insert (newDelivery row.1 now row.2) = none := by
        unfold Table.insert
        exact dif_pos ⟨r, hr, Or.inl hid⟩
      rw [hrefused]
      rfl
    · push Not at hid
      obtain ⟨t', ht'⟩ := Table.insert_of_no_clash (r := newDelivery row.1 now row.2) (t := t)
        fun r hr hclash => by
          rcases hclash with hclash | ⟨_, _, hpair⟩
          · exact hid r hr hclash
          · exact hnone r hr hpair
      refine Or.inr ⟨fun x => ?_, hnone, hid⟩
      rw [ht']
      exact Table.mem_insert ht'

theorem mem_insertNumbered_of_mem (hx : x ∈ t) : x ∈ insertNumbered now rows t := by
  induction rows generalizing t with
  | nil => exact hx
  | cons row rest ih =>
      refine ih ?_
      rcases @insertNumberedDelivery_cases now t row with ⟨hsame, _⟩ | ⟨hmem, _⟩
      · rw [hsame]
        exact hx
      · exact (hmem x).mpr (Or.inl hx)

/-- The rows after an insert: the old ones, and new ones for payments and
domains that had none. -/
theorem mem_insertNumbered (hx : x ∈ insertNumbered now rows t) :
    x ∈ t ∨ ∃ row ∈ rows, x = newDelivery row.1 now row.2 ∧ (∀ r ∈ t, ¬ IsFor r row.2) ∧
      ∀ r ∈ t, r.id ≠ row.1 := by
  induction rows generalizing t with
  | nil => exact Or.inl hx
  | cons row rest ih =>
      have old := @mem_insertNumbered_of_mem now t [row]
      rcases ih hx with hx | ⟨row', hrow', rfl, hnone, hid⟩
      · rcases @insertNumberedDelivery_cases now t row with
          ⟨hsame, _⟩ | ⟨hmem, hnone, hid⟩
        · rw [hsame] at hx
          exact Or.inl hx
        · rcases (hmem x).mp hx with hx | rfl
          · exact Or.inl hx
          · exact Or.inr ⟨row, List.mem_cons_self, rfl, hnone, hid⟩
      · exact Or.inr ⟨row', List.mem_cons_of_mem _ hrow', rfl, fun r hr => hnone r (old hr),
          fun r hr => hid r (old hr)⟩

/-- The table after `insert_webhook_deliveries`. -/
def insertAll (now : Int) (deliveries : List NewWebhookDelivery) (t : WebhookDeliveries) :
    WebhookDeliveries :=
  deliveries.foldl (fun t d => PaymentStore.insertWebhookDelivery now d t) t

/-- It numbers its rows itself. -/
theorem insertAll_numbered (now : Int) (deliveries : List NewWebhookDelivery)
    (t : WebhookDeliveries) :
    ∃ rows : List (Nat × NewWebhookDelivery), rows.map Prod.snd = deliveries ∧
      insertAll now deliveries t = insertNumbered now rows t := by
  induction deliveries generalizing t with
  | nil => exact ⟨[], rfl, rfl⟩
  | cons d rest ih =>
      obtain ⟨rows, hrows, hfold⟩ := ih (PaymentStore.insertWebhookDelivery now d t)
      refine ⟨(PaymentStore.nextDeliveryId t, d) :: rows, ?_, ?_⟩
      · rw [List.map_cons, hrows]
      · show insertAll now rest (PaymentStore.insertWebhookDelivery now d t) = _
        rw [hfold]
        rfl

/-- The next row id is above all others. -/
theorem id_lt_nextDeliveryId (hr : r ∈ t) : r.id < PaymentStore.nextDeliveryId t := by
  have hfold : ∀ (rows : List WebhookDeliveryRow) (n : Nat),
      n ≤ rows.foldl (fun n r => max n (r.id + 1)) n ∧
        ∀ r ∈ rows, r.id < rows.foldl (fun n r => max n (r.id + 1)) n := by
    intro rows
    induction rows with
    | nil => exact fun n => ⟨le_refl n, fun _ hr => absurd hr List.not_mem_nil⟩
    | cons x rest ih =>
        intro n
        obtain ⟨hle, hlt⟩ := ih (max n (x.id + 1))
        rw [List.foldl_cons]
        refine ⟨by omega, fun r hr => ?_⟩
        rcases List.mem_cons.mp hr with rfl | hr
        · omega
        · exact hlt r hr
  exact (hfold t.rows 1).2 r hr

/-- After an insert there is a row for each of its deliveries. -/
theorem exists_mem_insertAll {deliveries : List NewWebhookDelivery} {d : NewWebhookDelivery}
    (hd : d ∈ deliveries) : ∃ r ∈ insertAll now deliveries t, IsFor r d := by
  induction deliveries generalizing t with
  | nil => exact absurd hd List.not_mem_nil
  | cons d' rest ih =>
      rcases List.mem_cons.mp hd with rfl | hd
      · obtain ⟨rows, _, hrows⟩ := insertAll_numbered now rest
          (insertNumberedDelivery now t (PaymentStore.nextDeliveryId t, d))
        have hstays : ∀ r ∈ insertNumberedDelivery now t (PaymentStore.nextDeliveryId t, d),
            r ∈ insertAll now (d :: rest) t := by
          intro r hr
          show r ∈ insertAll now rest
            (insertNumberedDelivery now t (PaymentStore.nextDeliveryId t, d))
          rw [hrows]
          exact mem_insertNumbered_of_mem hr
        rcases @insertNumberedDelivery_cases now t (PaymentStore.nextDeliveryId t, d) with
          ⟨hsame, hstored | hid⟩ | ⟨hmem, _⟩
        · obtain ⟨r, hr, hfor⟩ := hstored
          exact ⟨r, hstays r (hsame.symm ▸ hr), hfor⟩
        · obtain ⟨r, hr, hid⟩ := hid
          exact absurd hid (Nat.ne_of_lt (id_lt_nextDeliveryId hr))
        · exact ⟨_, hstays _ ((hmem _).mpr (Or.inr rfl)), rfl, rfl⟩
      · exact ih hd

/-- The rows after an insert, as `mem_insertNumbered` says of numbered rows. -/
theorem mem_insertAll {deliveries : List NewWebhookDelivery}
    (hx : x ∈ insertAll now deliveries t) :
    x ∈ t ∨ ∃ d ∈ deliveries, ∃ id, x = newDelivery id now d ∧ ∀ r ∈ t, ¬ IsFor r d := by
  obtain ⟨rows, hdeliveries, hrows⟩ := insertAll_numbered now deliveries t
  rw [hrows] at hx
  rcases mem_insertNumbered hx with hold | ⟨row, hrow, rfl, hnone, _⟩
  · exact Or.inl hold
  · exact Or.inr ⟨row.2, hdeliveries ▸ List.mem_map_of_mem hrow, row.1, rfl, hnone⟩

theorem mem_insertAll_of_mem {deliveries : List NewWebhookDelivery} (hx : x ∈ t) :
    x ∈ insertAll now deliveries t := by
  obtain ⟨rows, _, hrows⟩ := insertAll_numbered now deliveries t
  rw [hrows]
  exact mem_insertNumbered_of_mem hx

/-- Deliveries that all have a row already add none. -/
theorem insertAll_of_queued {deliveries : List NewWebhookDelivery}
    (h : ∀ d ∈ deliveries, ∃ r ∈ t, IsFor r d) : insertAll now deliveries t = t := by
  induction deliveries with
  | nil => rfl
  | cons d rest ih =>
      have hsame : PaymentStore.insertWebhookDelivery now d t = t := by
        rcases @insertNumberedDelivery_cases now t (PaymentStore.nextDeliveryId t, d) with
          ⟨hsame, _⟩ | ⟨_, hnone, _⟩
        · exact hsame
        · obtain ⟨r, hr, hfor⟩ := h d List.mem_cons_self
          exact absurd hfor (hnone r hr)
      show insertAll now rest (PaymentStore.insertWebhookDelivery now d t) = t
      rw [hsame]
      exact ih fun d' hd' => h d' (List.mem_cons_of_mem _ hd')

theorem onePerPair_insertNumbered (h : OnePerPair t) : OnePerPair (insertNumbered now rows t) := by
  induction rows generalizing t with
  | nil => exact h
  | cons row rest ih =>
      refine ih ?_
      rcases @insertNumberedDelivery_cases now t row with
        ⟨hsame, _⟩ | ⟨hmem, hnone, _⟩
      · rw [hsame]
        exact h
      · intro r hr r' hr' hpair
        rcases (hmem r).mp hr with hr | rfl
        · rcases (hmem r').mp hr' with hr' | rfl
          · exact h r hr r' hr' hpair
          · exact absurd hpair (hnone r hr)
        · rcases (hmem r').mp hr' with hr' | rfl
          · exact absurd ⟨hpair.1.symm, hpair.2.symm⟩ (hnone r' hr')
          · rfl

theorem onePerPair_insertAll {deliveries : List NewWebhookDelivery} (h : OnePerPair t) :
    OnePerPair (insertAll now deliveries t) := by
  obtain ⟨rows, _, hrows⟩ := insertAll_numbered now deliveries t
  rw [hrows]
  exact onePerPair_insertNumbered h

/-- Rows that stay as they are, but for the claim and what is reported, stay one
for a payment and a domain. -/
theorem onePerPair_of_kept {t' : WebhookDeliveries} (h : OnePerPair t)
    (hkept : ∀ x ∈ t', ∃ r ∈ t, r.Kept x) : OnePerPair t' := by
  intro x hx y hy hpair
  obtain ⟨r, hr, hrx⟩ := hkept x hx
  obtain ⟨s, hs, hsy⟩ := hkept y hy
  have hsame : r = s := by
    refine h r hr s hs ?_
    show r.delivery.identifier = s.delivery.identifier ∧ r.delivery.domain = s.delivery.domain
    rw [← hrx.delivery, ← hsy.delivery]
    exact hpair
  refine eq_of_id hx hy ?_
  rw [hrx.id, hsy.id, hsame]

end WebhookDeliveries

end BlinkLnurl
