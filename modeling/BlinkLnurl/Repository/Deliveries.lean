import BlinkLnurl.Repository.Payments
import Mathlib.Algebra.Group.Int.Defs

/-!
# The webhook delivery queue

The operations of `WebhookRepository` on the table `webhook_deliveries`, as
`sqlite/repository.rs` has them: a worker takes at most one delivery of each
domain, which nobody else is given for the time of the lease, and reports what
became of it by the row id alone.

`ROW_NUMBER` numbers rows of equal `next_retry_at` in any order, and `RETURNING`
answers in any order: `TakesPending` admits all of them.
-/

namespace BlinkLnurl

open Rel

abbrev WebhookDeliveries := Table WebhookDeliveryRow

namespace WebhookDeliveryRow

/-- What `RETURNING` answers of a row. -/
def given (r : WebhookDeliveryRow) : WebhookDelivery where
  id := r.id
  identifier := r.delivery.identifier
  domain := r.delivery.domain
  url := r.url
  payload := r.delivery.payload
  createdAt := r.createdAt
  retryCount := r.retryCount
  nextRetryAt := r.nextRetryAt

/-- Two rows are about one payment and one domain. -/
def SamePair (r r' : WebhookDeliveryRow) : Prop :=
  r.delivery.identifier = r'.delivery.identifier ∧ r.delivery.domain = r'.delivery.domain

/-- An update that leaves alone what a delivery is about. -/
def KeepsDelivery (f : WebhookDeliveryRow → WebhookDeliveryRow) : Prop :=
  ∀ r, (f r).id = r.id ∧ (f r).delivery = r.delivery ∧ (f r).createdAt = r.createdAt ∧
    ((f r).succeededAt = none → r.succeededAt = none)

theorem KeepsDelivery.keepsKeys {f : WebhookDeliveryRow → WebhookDeliveryRow}
    (hf : KeepsDelivery f) {p : WebhookDeliveryRow → Bool} : Table.KeepsKeys (Table.onRow p f) := by
  have hrow : KeepsDelivery (Table.onRow p f) := by
    intro r
    unfold Table.onRow
    split
    · exact hf r
    · exact ⟨rfl, rfl, rfl, fun h => h⟩
  intro a b hclash
  obtain ⟨hid, hdelivery, _, hopen⟩ := hrow a
  obtain ⟨hid', hdelivery', _, hopen'⟩ := hrow b
  rcases hclash with hsame | ⟨ha, hb, hidentifier, hdomain⟩
  · exact Or.inl (by rw [← hid, ← hid', hsame])
  · rw [hdelivery, hdelivery'] at hidentifier hdomain
    exact Or.inr ⟨hopen ha, hopen' hb, hidentifier, hdomain⟩

end WebhookDeliveryRow

open WebhookDeliveryRow (given KeepsDelivery)

namespace WebhookDeliveries

/-- `UPDATE webhook_deliveries SET f WHERE p`. -/
def set (p : WebhookDeliveryRow → Bool) (f : WebhookDeliveryRow → WebhookDeliveryRow)
    (hf : KeepsDelivery f) (t : WebhookDeliveries) : WebhookDeliveries := t.modify p f hf.keepsKeys

theorem mem_set {p : WebhookDeliveryRow → Bool} {f : WebhookDeliveryRow → WebhookDeliveryRow}
    {hf : KeepsDelivery f} {t : WebhookDeliveries} {x : WebhookDeliveryRow} :
    x ∈ set p f hf t ↔ ∃ r ∈ t, Table.onRow p f r = x := Table.mem_modify

theorem eq_of_id {t : WebhookDeliveries} {r r' : WebhookDeliveryRow} (hr : r ∈ t) (hr' : r' ∈ t)
    (h : r.id = r'.id) : r = r' := Table.eq_of_clash hr hr' (Or.inl h)

/-! ## Taking -/

/-- The `WHERE` of `candidates`. -/
def mayBeTaken (now : Int) (r : WebhookDeliveryRow) : Bool :=
  r.nextRetryAt ≤ now && r.succeededAt.isNone &&
    r.claimedAt.getD 0 < now - PaymentStore.claimLease

/-- The rows with `rn = 1`, the candidates being in the order of
`next_retry_at`. -/
def firstOfEachDomain : List WebhookDeliveryRow → List WebhookDeliveryRow
  | [] => []
  | r :: rest => r :: (firstOfEachDomain rest).filter fun x => x.delivery.domain ≠ r.delivery.domain

/-- `SET claimed_at WHERE id IN (..)`. -/
def claimFirst (now : Int) (first : List WebhookDeliveryRow) (t : WebhookDeliveries) :
    WebhookDeliveries :=
  set (fun r => first.any fun f => f.id = r.id) (fun r => { r with claimedAt := some now })
    (fun _ => ⟨rfl, rfl, rfl, fun h => h⟩) t

def takePendingWebhookDeliveries (now : Int) (t : WebhookDeliveries) :
    List WebhookDelivery × WebhookDeliveries :=
  let first := firstOfEachDomain
    ((t.select (mayBeTaken now)).insertionSort fun a b => a.nextRetryAt ≤ b.nextRetryAt)
  (first.map given, claimFirst now first t)

/-- Every way the statement may number and answer. -/
def TakesPending (now : Int) (t : WebhookDeliveries) (taken : List WebhookDelivery)
    (t' : WebhookDeliveries) : Prop :=
  ∃ order : List WebhookDeliveryRow, order.Perm (t.select (mayBeTaken now)) ∧
    order.Pairwise (fun a b => a.nextRetryAt ≤ b.nextRetryAt) ∧
    taken.Perm ((firstOfEachDomain order).map given) ∧
      t' = claimFirst now (firstOfEachDomain order) t

/-- The model's way is one of them. -/
theorem takesPending_take (now : Int) (t : WebhookDeliveries) :
    TakesPending now t (takePendingWebhookDeliveries now t).1
      (takePendingWebhookDeliveries now t).2 := by
  have : IsTrans WebhookDeliveryRow fun a b => a.nextRetryAt ≤ b.nextRetryAt :=
    ⟨fun _ _ _ => le_trans⟩
  have : Std.Total fun a b : WebhookDeliveryRow => a.nextRetryAt ≤ b.nextRetryAt :=
    ⟨fun _ _ => le_total _ _⟩
  exact ⟨_, List.perm_insertionSort _ _, List.pairwise_insertionSort _ _, .refl _, rfl⟩

section First

variable {order : List WebhookDeliveryRow} {r : WebhookDeliveryRow} {domain : String}

theorem firstOfEachDomain_subset : firstOfEachDomain order ⊆ order := by
  induction order with
  | nil => exact List.Subset.refl _
  | cons x rest ih =>
      intro r hr
      rcases List.mem_cons.mp hr with rfl | hr
      · exact List.mem_cons_self
      · exact List.mem_cons_of_mem _ (ih (List.mem_filter.mp hr).1)

/-- No two of them are of one domain. -/
theorem firstOfEachDomain_pairwise :
    (firstOfEachDomain order).Pairwise fun a b => a.delivery.domain ≠ b.delivery.domain := by
  induction order with
  | nil => exact List.Pairwise.nil
  | cons x rest ih =>
      refine List.pairwise_cons.mpr ⟨fun b hb => ?_, ih.filter _⟩
      have hne := (List.mem_filter.mp hb).2
      exact (of_decide_eq_true hne).symm

/-- Every domain of the order has one, and it comes before the others. -/
theorem exists_firstOfEachDomain (hsorted : order.Pairwise fun a b => a.nextRetryAt ≤ b.nextRetryAt)
    (hr : r ∈ order) :
    ∃ f ∈ firstOfEachDomain order, f.delivery.domain = r.delivery.domain ∧
      ∀ r' ∈ order, r'.delivery.domain = r.delivery.domain → f.nextRetryAt ≤ r'.nextRetryAt := by
  induction order with
  | nil => exact absurd hr List.not_mem_nil
  | cons x rest ih =>
      obtain ⟨hx, hrest⟩ := List.pairwise_cons.mp hsorted
      by_cases hdomain : r.delivery.domain = x.delivery.domain
      · refine ⟨x, List.mem_cons_self, hdomain.symm, fun r' hr' _ => ?_⟩
        rcases List.mem_cons.mp hr' with rfl | hr'
        · exact le_refl _
        · exact hx r' hr'
      · have hr : r ∈ rest := by
          rcases List.mem_cons.mp hr with rfl | hr
          · exact absurd rfl hdomain
          · exact hr
        obtain ⟨f, hf, hfdomain, hmin⟩ := ih hrest hr
        refine ⟨f, List.mem_cons_of_mem _ (List.mem_filter.mpr ⟨hf, ?_⟩), hfdomain, ?_⟩
        · rw [hfdomain]
          exact decide_eq_true hdomain
        · intro r' hr' hr'domain
          rcases List.mem_cons.mp hr' with rfl | hr'
          · exact absurd hr'domain.symm hdomain
          · exact hmin r' hr' hr'domain

end First

/-! ## Reporting -/

/-- `i64::MAX`. -/
def parkedAt : Int := 2 ^ 63 - 1

def updateWebhookDeliverySuccess (id : Nat) (succeededAt : Int) (url : String)
    (t : WebhookDeliveries) : WebhookDeliveries :=
  set (fun r => r.id = id) (fun r => { r with succeededAt := some succeededAt, url := some url })
    (fun _ => ⟨rfl, rfl, rfl, fun h => nomatch h⟩) t

def updateWebhookDeliveryFailure (id : Nat) (retryCount nextRetryAt : Int)
    (statusCode : Option Int) (body : Option String) (url : String) (t : WebhookDeliveries) :
    WebhookDeliveries :=
  set (fun r => r.id = id)
    (fun r => { r with
      retryCount, nextRetryAt, claimedAt := none
      lastErrorStatusCode := statusCode, lastErrorBody := body, url := some url })
    (fun _ => ⟨rfl, rfl, rfl, fun h => h⟩) t

def unclaimWebhookDeliveries (ids : List Nat) (t : WebhookDeliveries) : WebhookDeliveries :=
  set (fun r => ids.contains r.id) (fun r => { r with claimedAt := none })
    (fun _ => ⟨rfl, rfl, rfl, fun h => h⟩) t

def deleteWebhookDeliveriesOlderThan (before : Int) (t : WebhookDeliveries) :
    Nat × WebhookDeliveries :=
  (t.affected fun r => r.createdAt < before, t.delete fun r => r.createdAt < before)

def deleteWebhookDelivery (id : Nat) (t : WebhookDeliveries) : WebhookDeliveries :=
  t.delete fun r => r.id = id

def parkWebhookDelivery (id : Nat) (t : WebhookDeliveries) : WebhookDeliveries :=
  set (fun r => r.id = id) (fun r => { r with nextRetryAt := parkedAt, claimedAt := none })
    (fun _ => ⟨rfl, rfl, rfl, fun h => h⟩) t

end WebhookDeliveries

open WebhookDeliveries

/-- The operations on deliveries that are stored. -/
inductive WebhookWrite
  | updateWebhookDeliverySuccess (id : Nat) (succeededAt : Int) (url : String)
  | updateWebhookDeliveryFailure (id : Nat) (retryCount nextRetryAt : Int)
      (statusCode : Option Int) (body : Option String) (url : String)
  | unclaimWebhookDeliveries (ids : List Nat)
  | deleteWebhookDeliveriesOlderThan (before : Int)
  | deleteWebhookDelivery (id : Nat)
  | parkWebhookDelivery (id : Nat)
deriving DecidableEq

namespace WebhookWrite

abbrev Result : WebhookWrite → Type
  | deleteWebhookDeliveriesOlderThan _ => Nat
  | _ => Unit

def run (t : WebhookDeliveries) : (w : WebhookWrite) → w.Result × WebhookDeliveries
  | updateWebhookDeliverySuccess id succeededAt url =>
      ((), t.updateWebhookDeliverySuccess id succeededAt url)
  | updateWebhookDeliveryFailure id retryCount nextRetryAt statusCode body url =>
      ((), t.updateWebhookDeliveryFailure id retryCount nextRetryAt statusCode body url)
  | unclaimWebhookDeliveries ids => ((), t.unclaimWebhookDeliveries ids)
  | deleteWebhookDeliveriesOlderThan before => t.deleteWebhookDeliveriesOlderThan before
  | deleteWebhookDelivery id => ((), t.deleteWebhookDelivery id)
  | parkWebhookDelivery id => ((), t.parkWebhookDelivery id)

end WebhookWrite

end BlinkLnurl
