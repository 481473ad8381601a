import BlinkLnurl.Lib.FixedWindow
import BlinkLnurl.Lib.Table
import Mathlib.Algebra.Group.Nat.Defs
import Mathlib.Data.List.Basic

/-!
# The rate limits

`rate_limit.rs`: one table of fixed-window counters for all client addresses,
and the global budget of country lookups. Time is in nanoseconds, and
`duration_since` is zero where it would be negative.

The table forgets expired windows only, so what it answers to one bucket is
what a limiter for that bucket alone would (`own_run`), whatever the others do.
-/

namespace BlinkLnurl

open FixedWindow Rel

def u32Max : Nat := 2 ^ 32 - 1

/-- The octets of an address, first to last. -/
inductive IpAddr
  | v4 (octets : BitVec 32)
  | v6 (octets : BitVec 128)
deriving DecidableEq, Repr

/-- IPv4 addresses count alone, IPv6 addresses by their first eight octets. -/
def bucket : IpAddr → IpAddr
  | .v4 octets => .v4 octets
  | .v6 octets => .v6 ((octets >>> 64) <<< 64)

/-- An entry of `counters`. -/
structure TrackedIp where
  ip : IpAddr
  window : Window
deriving DecidableEq, Repr

instance : Keyed TrackedIp IpAddr := ⟨TrackedIp.ip⟩

/-- The parameters of a limiter. -/
structure PerIpRateLimiter where
  maxRequests : Nat
  window : Nat
  maxTrackedIps : Nat
  allowUntrusted : Bool

/-- What a limiter keeps behind its lock. -/
structure Counters where
  counters : Table TrackedIp
  saturated : Bool

namespace Counters

/-- A new limiter tracks nobody. -/
def new : Counters := ⟨.empty, false⟩

end Counters

namespace PerIpRateLimiter

variable (limiter : PerIpRateLimiter)

def limit : Limit := ⟨limiter.maxRequests, limiter.window, u32Max⟩

def isFull (counters : Table TrackedIp) : Bool := limiter.maxTrackedIps ≤ counters.rows.length

/-- `retain`: only expired windows are dropped. -/
def retainLive (now : Nat) (counters : Table TrackedIp) : Table TrackedIp :=
  counters.delete fun r => limiter.limit.expired now r.window

/-- The table in which a bucket is counted: a full one makes room for a new
bucket first. -/
def makeRoom (now : Nat) (b : IpAddr) (counters : Table TrackedIp) : Table TrackedIp :=
  if (counters.get b).isNone && limiter.isFull counters then limiter.retainLive now counters
  else counters

/-- No room can be made for a new bucket. -/
def isSaturated (now : Nat) (b : IpAddr) (counters : Table TrackedIp) : Bool :=
  (counters.get b).isNone && limiter.isFull counters &&
    limiter.isFull (limiter.retainLive now counters)

/-- The window of a tracked bucket. -/
def windowOf (b : IpAddr) (counters : Table TrackedIp) : Option Window :=
  (counters.get b).map TrackedIp.window

/-- `entry(ip).or_insert(..)`, and the window it is left with. -/
def store (b : IpAddr) (window : Window) (counters : Table TrackedIp) : Table TrackedIp :=
  counters.upsert ⟨b, window⟩ (fun r => { r with window }) fun _ => rfl

/-- `check` of a bucket, with the lock held at `now`. -/
def checkBucket (now : Nat) (b : IpAddr) (s : Counters) : Bool × Counters :=
  let counters := limiter.makeRoom now b s.counters
  if limiter.isSaturated now b s.counters then (false, ⟨counters, true⟩)
  else
    let spent := limiter.limit.spend now (windowOf b counters)
    (spent.1, ⟨store b spent.2 counters, if (s.counters.get b).isNone then false else s.saturated⟩)

def check (now : Nat) (ip : Option IpAddr) (s : Counters) : Bool × Counters :=
  match ip with
  | none => (limiter.allowUntrusted, s)
  | some ip => limiter.checkBucket now (bucket ip) s

end PerIpRateLimiter

/-! ## Runs -/

/-- A call of `check`. -/
structure Check where
  now : Nat
  ip : Option IpAddr
deriving DecidableEq, Repr

/-- A call in a run, with its answer and what became of the window of its
bucket. -/
structure CheckEvent where
  call : Check
  accepted : Bool
  /-- Refused because the table is full. -/
  saturated : Bool
  restarted : Bool
deriving DecidableEq, Repr

namespace CheckEvent

/-- A call of the bucket. -/
def isOf (b : IpAddr) (e : CheckEvent) : Bool := e.call.ip.map bucket = some b

/-- A call of the bucket that was not refused for saturation. -/
def isCounted (b : IpAddr) (e : CheckEvent) : Bool := e.isOf b && !e.saturated

/-- The call as one of a counter for the bucket alone. -/
def spent (e : CheckEvent) : Spent := ⟨e.call.now, e.restarted, e.accepted⟩

end CheckEvent

namespace PerIpRateLimiter

variable (limiter : PerIpRateLimiter)

def checked (c : Check) (s : Counters) : CheckEvent :=
  match c.ip with
  | none => ⟨c, (limiter.check c.now c.ip s).1, false, false⟩
  | some ip =>
      let b := bucket ip
      let saturated := limiter.isSaturated c.now b s.counters
      ⟨c, (limiter.check c.now c.ip s).1, saturated,
        !saturated && limiter.limit.restarts c.now
          (windowOf b (limiter.makeRoom c.now b s.counters))⟩

/-- The calls of a sequence, one after the other. -/
def run (s : Counters) : List Check → List CheckEvent
  | [] => []
  | c :: rest => limiter.checked c s :: run (limiter.check c.now c.ip s).2 rest

/-- The limiter after a sequence of calls. -/
def after (s : Counters) (calls : List Check) : Counters :=
  calls.foldl (fun s c => (limiter.check c.now c.ip s).2) s

variable {limiter} {s : Counters} {c : Check} {calls : List Check} {b : IpAddr} {now : Nat}

/-! ## The size of the table -/

theorem length_retainLive (t : Table TrackedIp) :
    (limiter.retainLive now t).rows.length ≤ t.rows.length := List.length_filter_le ..

theorem length_makeRoom (t : Table TrackedIp) :
    (limiter.makeRoom now b t).rows.length ≤ t.rows.length := by
  unfold makeRoom
  split
  · exact length_retainLive t
  · exact Nat.le_refl _

/-- A tracked bucket is stored in place, a new one takes one row more. -/
theorem length_store (w : Window) (t : Table TrackedIp) :
    (store b w t).rows.length = t.rows.length + if (t.get b).isNone then 1 else 0 := by
  unfold store Table.upsert
  by_cases htracked : ∃ x ∈ t.rows, Keyed.key x = Keyed.key (TrackedIp.mk b w)
  · obtain ⟨x, hx, hkey⟩ := htracked
    have hget : t.get b = some x := Table.get_eq_some.mpr ⟨hx, hkey⟩
    rw [dif_pos ⟨x, hx, hkey⟩, hget]
    exact List.length_map ..
  · have hget : t.get b = none := Table.get_eq_none.mpr fun x hx hkey => htracked ⟨x, hx, hkey⟩
    rw [dif_neg htracked, hget]
    exact List.length_append

theorem get_retainLive (t : Table TrackedIp) :
    (limiter.retainLive now t).get b =
      (t.get b).filter fun r => !limiter.limit.expired now r.window := Table.get_delete

/-- Making room for a new bucket does not track it. -/
theorem get_makeRoom_self (t : Table TrackedIp) : (limiter.makeRoom now b t).get b = t.get b := by
  unfold makeRoom
  split
  · rename_i hnew
    rw [Bool.and_eq_true, Option.isNone_iff_eq_none] at hnew
    rw [get_retainLive, hnew.1]
    rfl
  · rfl

/-- A call keeps the table within its bound. -/
theorem check_length (h : s.counters.rows.length ≤ limiter.maxTrackedIps) (now : Nat)
    (ip : Option IpAddr) :
    (limiter.check now ip s).2.counters.rows.length ≤ limiter.maxTrackedIps := by
  cases ip with
  | none => exact h
  | some ip =>
      have hroom := @length_makeRoom limiter (bucket ip) now s.counters
      show (limiter.checkBucket now (bucket ip) s).2.counters.rows.length ≤ _
      unfold checkBucket
      by_cases hsaturated : limiter.isSaturated now (bucket ip) s.counters = true
      · rw [if_pos hsaturated]
        exact Nat.le_trans hroom h
      · rw [if_neg hsaturated]
        show (store (bucket ip) _ _).rows.length ≤ _
        rw [length_store, get_makeRoom_self]
        by_cases hnew : (s.counters.get (bucket ip)).isNone = true
        · -- there is room: the table was not full, or it is not after the eviction
          rw [if_pos hnew]
          unfold isSaturated at hsaturated
          unfold makeRoom at hroom ⊢
          rw [hnew, Bool.true_and] at hsaturated ⊢
          by_cases hfull : limiter.isFull s.counters = true
          · rw [hfull, Bool.true_and] at hsaturated
            unfold isFull at hsaturated
            rw [decide_eq_true_eq] at hsaturated
            rw [if_pos hfull]
            omega
          · unfold isFull at hfull
            rw [decide_eq_true_eq] at hfull
            unfold isFull
            rw [if_neg (by rw [decide_eq_true_eq]; exact hfull)]
            omega
        · rw [if_neg hnew]
          omega

theorem after_length (h : s.counters.rows.length ≤ limiter.maxTrackedIps) :
    (limiter.after s calls).counters.rows.length ≤ limiter.maxTrackedIps := by
  induction calls generalizing s with
  | nil => exact h
  | cons c rest ih => exact ih (check_length h c.now c.ip)

/-! ## One bucket of the table -/

theorem windowOf_store_self (w : Window) (t : Table TrackedIp) :
    windowOf b (store b w t) = some w := by
  have hrow : (store b w t).get b = some ((t.get b).elim ⟨b, w⟩ fun r => { r with window := w }) :=
    Table.get_upsert_self (r := TrackedIp.mk b w)
  unfold windowOf
  rw [hrow]
  cases t.get b <;> rfl

theorem windowOf_store_ne {b' : IpAddr} (hne : b ≠ b') (w : Window) (t : Table TrackedIp) :
    windowOf b (store b' w t) = windowOf b t := by
  have hrow : (store b' w t).get b = t.get b := Table.get_upsert_ne hne
  unfold windowOf
  rw [hrow]

/-- A limiter for the bucket alone is in the window `own`, the table has
`tracked`: the same, or nothing in place of a window that is over. -/
def Agrees (limiter : PerIpRateLimiter) (now : Nat) (own tracked : Option Window) : Prop :=
  own = tracked ∨ tracked = none ∧ limiter.limit.restarts now own = true

variable {own tracked : Option Window} {t : Table TrackedIp}

theorem Agrees.later {later : Nat} (h : limiter.Agrees now own tracked) (hle : now ≤ later) :
    limiter.Agrees later own tracked := by
  rcases h with h | ⟨hnone, hover⟩
  · exact Or.inl h
  · refine Or.inr ⟨hnone, ?_⟩
    cases own with
    | none => rfl
    | some w => exact Limit.expired_mono hle hover

/-- The eviction of expired windows goes unnoticed. -/
theorem Agrees.makeRoom {b' : IpAddr} (h : limiter.Agrees now own (windowOf b t)) :
    limiter.Agrees now own (windowOf b (limiter.makeRoom now b' t)) := by
  unfold PerIpRateLimiter.makeRoom
  split
  · unfold windowOf at h ⊢
    rw [get_retainLive]
    cases hget : t.get b with
    | none =>
        rw [hget] at h
        exact h
    | some r =>
        rw [hget] at h
        rcases h with hsame | ⟨hnone, _⟩
        · by_cases hexpired : limiter.limit.expired now r.window = true
          · refine Or.inr ⟨?_, ?_⟩
            · rw [Option.filter_some, hexpired]
              rfl
            · rw [hsame]
              exact hexpired
          · refine Or.inl ?_
            rw [hsame, Option.filter_some, Bool.eq_false_iff.mpr hexpired]
            rfl
        · exact nomatch hnone
  · exact h

/-- Both give the same answer and leave the same window. -/
theorem Agrees.spend (h : limiter.Agrees now own tracked) :
    limiter.limit.spend now own = limiter.limit.spend now tracked ∧
      limiter.limit.restarts now own = limiter.limit.restarts now tracked := by
  rcases h with rfl | ⟨rfl, hover⟩
  · exact ⟨rfl, rfl⟩
  · exact ⟨Limit.spend_of_restarts hover, hover⟩

/-- What a call of another bucket leaves of a bucket, and a call of its own that
is refused for saturation. -/
theorem check_agrees (h : limiter.Agrees now own (windowOf b s.counters)) (ip : Option IpAddr)
    (hother : ∀ a, ip = some a → bucket a = b → limiter.isSaturated now b s.counters = true) :
    limiter.Agrees now own (windowOf b (limiter.check now ip s).2.counters) := by
  cases ip with
  | none => exact h
  | some a =>
      show limiter.Agrees now own (windowOf b (limiter.checkBucket now (bucket a) s).2.counters)
      unfold checkBucket
      by_cases hsaturated : limiter.isSaturated now (bucket a) s.counters = true
      · rw [if_pos hsaturated]
        exact h.makeRoom
      · rw [if_neg hsaturated]
        have hne : b ≠ bucket a := by
          intro hb
          refine hsaturated ?_
          rw [← hb]
          exact hother a rfl hb.symm
        show limiter.Agrees now own (windowOf b (store (bucket a) _ _))
        rw [windowOf_store_ne hne]
        exact h.makeRoom

/-! ## The calls of one bucket -/

theorem checked_isCounted (c : Check) (s : Counters) :
    (limiter.checked c s).isCounted b = true ↔
      ∃ a, c.ip = some a ∧ bucket a = b ∧ limiter.isSaturated c.now b s.counters = false := by
  obtain ⟨now, ip⟩ := c
  unfold CheckEvent.isCounted CheckEvent.isOf
  rw [Bool.and_eq_true, decide_eq_true_eq, Bool.not_eq_true']
  cases ip with
  | none =>
      constructor
      · intro ⟨hb, _⟩
        exact nomatch hb
      · intro ⟨a, ha, _⟩
        exact nomatch ha
  | some a =>
      show some (bucket a) = some b ∧ limiter.isSaturated now (bucket a) s.counters = false ↔ _
      constructor
      · intro ⟨hb, hroom⟩
        obtain rfl := Option.some.inj hb
        exact ⟨a, rfl, rfl, hroom⟩
      · intro ⟨a', ha, hb, hroom⟩
        obtain rfl := Option.some.inj ha
        subst hb
        exact ⟨rfl, hroom⟩

/-- The calls that count for a bucket get what a counter of its own would give
them, whatever else is in the sequence. -/
theorem counted_run (hsorted : calls.Pairwise fun c d => c.now ≤ d.now)
    (hfrom : ∀ c ∈ calls, now ≤ c.now) (h : limiter.Agrees now own (windowOf b s.counters)) :
    ((limiter.run s calls).filter (CheckEvent.isCounted b)).map CheckEvent.spent =
      limiter.limit.run own
        (((limiter.run s calls).filter (CheckEvent.isCounted b)).map fun e => e.call.now) := by
  induction calls generalizing s own now with
  | nil => rfl
  | cons c rest ih =>
      obtain ⟨hle, hrest⟩ := List.pairwise_cons.mp hsorted
      have hnow := h.later (hfrom c List.mem_cons_self)
      rw [run]
      by_cases hcounted : (limiter.checked c s).isCounted b = true
      · obtain ⟨a, ha, rfl, hroom⟩ := (checked_isCounted c s).mp hcounted
        rw [List.filter_cons_of_pos hcounted, List.map_cons, List.map_cons, Limit.run]
        have hspend := (@Agrees.makeRoom _ _ _ _ _ (bucket a) hnow).spend
        -- the call is answered from the window the bucket would have alone
        have hstep : (limiter.check c.now c.ip s).1 = (limiter.limit.spend c.now own).1 ∧
            windowOf (bucket a) (limiter.check c.now c.ip s).2.counters =
              some (limiter.limit.spend c.now own).2 := by
          rw [ha, hspend.1]
          show (limiter.checkBucket c.now (bucket a) s).1 = _ ∧
            windowOf (bucket a) (limiter.checkBucket c.now (bucket a) s).2.counters = _
          unfold checkBucket
          rw [hroom]
          exact ⟨rfl, windowOf_store_self _ _⟩
        have hrestarted : (limiter.checked c s).restarted = limiter.limit.restarts c.now own := by
          rw [hspend.2]
          unfold checked
          rw [ha]
          show (!limiter.isSaturated c.now (bucket a) s.counters && _) = _
          rw [hroom]
          rfl
        have haccepted : (limiter.checked c s).accepted = (limiter.check c.now c.ip s).1 := by
          unfold checked
          rw [ha]
        have hcall : (limiter.checked c s).call = c := by
          unfold checked
          rw [ha]
        rw [ih hrest hle (Or.inl hstep.2.symm)]
        unfold CheckEvent.spent
        rw [hrestarted, haccepted, hstep.1, hcall]
      · rw [List.filter_cons_of_neg hcounted]
        refine ih hrest hle (check_agrees hnow c.ip fun a ha hb => ?_)
        by_contra hroom
        exact hcounted ((checked_isCounted c s).mpr ⟨a, ha, hb, Bool.eq_false_iff.mpr hroom⟩)

/-! ## A limiter that sees one bucket only -/

theorem run_calls : (limiter.run s calls).map CheckEvent.call = calls := by
  induction calls generalizing s with
  | nil => rfl
  | cons c rest ih =>
      rw [run, List.map_cons, ih]
      unfold checked
      split <;> rfl

/-- Some of the calls of a sequence, in their order. -/
theorem pairwise_own {own : List CheckEvent} (hown : (limiter.run s calls).filter
    (CheckEvent.isCounted b) = own) (hsorted : calls.Pairwise fun c d => c.now ≤ d.now) :
    (own.map CheckEvent.call).Pairwise fun c d => c.now ≤ d.now := by
  refine hsorted.sublist ?_
  rw [← hown]
  conv_rhs => rw [← @run_calls limiter s calls]
  exact List.filter_sublist.map _

/-- Nothing is counted where there is no room for anybody. -/
theorem maxTrackedIps_pos (h : s.counters.rows.length ≤ limiter.maxTrackedIps) {e : CheckEvent}
    (he : e ∈ limiter.run s calls) (hcounted : e.isCounted b = true) :
    0 < limiter.maxTrackedIps := by
  induction calls generalizing s with
  | nil => exact absurd he List.not_mem_nil
  | cons c rest ih =>
      rcases List.mem_cons.mp he with rfl | he
      · obtain ⟨a, _, _, hroom⟩ := (checked_isCounted c s).mp hcounted
        by_contra hnone
        have hzero : limiter.maxTrackedIps = 0 := by omega
        have hrows : s.counters.rows = [] := List.length_eq_zero_iff.mp (by omega)
        have hnew : s.counters.get b = none := by
          refine Table.get_eq_none.mpr fun r hr => ?_
          rw [← Table.mem_rows, hrows] at hr
          exact absurd hr List.not_mem_nil
        unfold isSaturated isFull at hroom
        rw [hnew, hzero] at hroom
        exact nomatch hroom
      · exact ih (check_length h c.now c.ip) he

/-- Only the bucket is tracked. -/
def TracksOnly (b : IpAddr) (s : Counters) : Prop := ∀ r ∈ s.counters, r.ip = b

theorem TracksOnly.not_saturated (h : TracksOnly b s) (hpos : 0 < limiter.maxTrackedIps) :
    limiter.isSaturated now b s.counters = false := by
  unfold isSaturated isFull
  cases hrows : s.counters.rows with
  | nil =>
      have hempty : decide (limiter.maxTrackedIps ≤ ([] : List TrackedIp).length) = false :=
        decide_eq_false (Nat.not_le_of_lt hpos)
      rw [hempty, Bool.and_false, Bool.false_and]
  | cons r rest =>
      have hr : r ∈ s.counters := by
        rw [← Table.mem_rows, hrows]
        exact List.mem_cons_self
      have hget : s.counters.get b = some r := Table.get_eq_some.mpr ⟨hr, h r hr⟩
      rw [hget]
      rfl

theorem TracksOnly.check (h : TracksOnly b s) {ip : Option IpAddr} (hip : ip.map bucket = some b) :
    TracksOnly b (limiter.check now ip s).2 := by
  obtain ⟨a, rfl, rfl⟩ := Option.map_eq_some_iff.mp hip
  have hroom : ∀ r ∈ limiter.makeRoom now (bucket a) s.counters, r.ip = bucket a := by
    intro r hr
    unfold PerIpRateLimiter.makeRoom at hr
    split at hr
    · exact h r (Table.mem_delete.mp hr).1
    · exact h r hr
  intro r hr
  have hr : r ∈ (limiter.checkBucket now (bucket a) s).2.counters := hr
  unfold checkBucket at hr
  split at hr
  · exact hroom r hr
  · rcases Table.mem_upsert.mp hr with ⟨r', hr', rfl⟩ | ⟨rfl, _⟩
    · unfold Table.onRow
      split <;> exact hroom r' hr'
    · rfl

/-- It counts every call. -/
theorem run_counted (h : TracksOnly b s) (hpos : 0 < limiter.maxTrackedIps)
    (hown : ∀ c ∈ calls, c.ip.map bucket = some b) :
    ∀ e ∈ limiter.run s calls, e.isCounted b = true := by
  induction calls generalizing s with
  | nil => exact fun e he => absurd he List.not_mem_nil
  | cons c rest ih =>
      have hip := hown c List.mem_cons_self
      obtain ⟨a, ha, hb⟩ := Option.map_eq_some_iff.mp hip
      have honly : TracksOnly b (limiter.check c.now c.ip s).2 := h.check hip
      have hcounted := ih honly fun d hd => hown d (List.mem_cons_of_mem _ hd)
      intro e he
      rcases List.mem_cons.mp he with rfl | he
      · exact (checked_isCounted c s).mpr ⟨a, ha, hb, h.not_saturated hpos⟩
      · exact hcounted e he

/-- From a new limiter: a counter for the bucket starts untracked. -/
theorem counted_run_new (limiter : PerIpRateLimiter) (b : IpAddr) {calls : List Check}
    (hsorted : calls.Pairwise fun c d => c.now ≤ d.now) :
    ((limiter.run .new calls).filter (CheckEvent.isCounted b)).map CheckEvent.spent =
      limiter.limit.run none
        (((limiter.run .new calls).filter (CheckEvent.isCounted b)).map fun e => e.call.now) :=
  counted_run hsorted (fun _ _ => Nat.zero_le _) (Or.inl rfl)

/-- The calls that count for a bucket are answered as by a limiter that sees no
others. -/
theorem own_run (limiter : PerIpRateLimiter) (b : IpAddr) {calls : List Check}
    (hsorted : calls.Pairwise fun c d => c.now ≤ d.now) {own : List CheckEvent}
    (hown : (limiter.run .new calls).filter (CheckEvent.isCounted b) = own) :
    own.map CheckEvent.spent =
      (limiter.run .new (own.map CheckEvent.call)).map CheckEvent.spent := by
  have hshared := counted_run_new limiter b hsorted
  rw [hown] at hshared
  cases hcase : own with
  | nil => rfl
  | cons e rest =>
      rw [← hcase]
      have hmem : ∀ e' ∈ own, e' ∈ limiter.run .new calls ∧ e'.isCounted b = true := by
        intro e' he'
        rw [← hown] at he'
        exact List.mem_filter.mp he'
      obtain ⟨he, hcounted⟩ := hmem e (hcase ▸ List.mem_cons_self)
      have hpos := maxTrackedIps_pos (Nat.zero_le _) he hcounted
      have hbucket : ∀ c ∈ own.map CheckEvent.call, c.ip.map bucket = some b := by
        intro c hc
        obtain ⟨e', he', rfl⟩ := List.mem_map.mp hc
        have hisOf := (hmem e' he').2
        unfold CheckEvent.isCounted CheckEvent.isOf at hisOf
        rw [Bool.and_eq_true, decide_eq_true_eq] at hisOf
        exact hisOf.1
      have honly : TracksOnly b Counters.new := fun r hr => absurd hr (Table.not_mem_empty r)
      have hall := run_counted honly hpos hbucket
      -- alone, it is answered by a counter of its own as well
      have halone := counted_run_new limiter b (pairwise_own hown hsorted)
      rw [List.filter_eq_self.mpr hall] at halone
      have htimes : (limiter.run .new (own.map CheckEvent.call)).map (fun e => e.call.now) =
          own.map fun e => e.call.now := by
        have hmap := congrArg (List.map Check.now)
          (@run_calls limiter .new (own.map CheckEvent.call))
        rw [List.map_map, List.map_map] at hmap
        exact hmap
      rw [halone, htimes]
      exact hshared

/-! ## The budget of a bucket -/

/-- A refusal for saturation is a refusal, and restarts nothing. -/
theorem saturated_of_mem_run {e : CheckEvent} (he : e ∈ limiter.run s calls)
    (hsaturated : e.saturated = true) : e.accepted = false ∧ e.restarted = false := by
  induction calls generalizing s with
  | nil => exact absurd he List.not_mem_nil
  | cons c rest ih =>
      rcases List.mem_cons.mp he with rfl | he
      · obtain ⟨now, ip⟩ := c
        cases ip with
        | none => exact nomatch hsaturated
        | some a =>
            have hfull : limiter.isSaturated now (bucket a) s.counters = true := hsaturated
            show (limiter.checkBucket now (bucket a) s).1 = false ∧
              (!limiter.isSaturated now (bucket a) s.counters && _) = false
            unfold checkBucket
            rw [hfull]
            exact ⟨rfl, rfl⟩
      · exact ih he

/-- The accepted calls of a bucket are those its own counter grants. -/
theorem countP_accepted {events : List CheckEvent} (b : IpAddr)
    (hevents : ∀ e ∈ events, e.saturated = true → e.accepted = false) (p : Spent → Bool) :
    events.countP (fun e => e.isOf b && e.accepted && p e.spent) =
      ((events.filter (CheckEvent.isCounted b)).map CheckEvent.spent).countP
        (fun s => s.granted && p s) := by
  rw [List.countP_map, List.countP_filter]
  refine List.countP_congr fun e he => ?_
  have hsaturated := hevents e he
  show _ ↔ (e.accepted && p e.spent && (e.isOf b && !e.saturated)) = true
  cases hfull : e.saturated with
  | true =>
      rw [hsaturated hfull]
      simp
  | false =>
      simp only [Bool.and_eq_true, Bool.not_false, Bool.and_true]
      constructor
      · intro ⟨⟨hof, haccepted⟩, hp⟩
        exact ⟨⟨haccepted, hp⟩, hof⟩
      · intro ⟨⟨haccepted, hp⟩, hof⟩
        exact ⟨⟨hof, haccepted⟩, hp⟩

end PerIpRateLimiter

/-- For every sequence of calls, in the order of their times: the table keeps
its bound; a bucket gets at most twice its budget over any stretch of time of
the length of a window, and at most its budget between two restarts; and its
calls, but for those refused for saturation, are answered as if they were the
only ones, and as a counter of its own would answer them. -/
theorem per_ip_budget (limiter : PerIpRateLimiter) (hwindow : 0 < limiter.window)
    (hmax : limiter.maxRequests < u32Max) (calls : List Check)
    (hsorted : calls.Pairwise fun c d => c.now ≤ d.now) :
    (limiter.after .new calls).counters.rows.length ≤ limiter.maxTrackedIps ∧
    ∀ b : IpAddr,
      (∀ t, (limiter.run .new calls).countP (fun e => e.isOf b && e.accepted &&
        (decide (t ≤ e.call.now) && decide (e.call.now < t + limiter.window))) ≤
          2 * limiter.maxRequests) ∧
      (∀ front e mid back, limiter.run .new calls = front ++ e :: mid ++ back →
        e.isOf b = true → e.restarted = true →
        (∀ e' ∈ mid, e'.isOf b = true → e'.restarted = false) →
        (e :: mid).countP (fun e => e.isOf b && e.accepted) ≤ limiter.maxRequests) ∧
      ∀ own, (limiter.run .new calls).filter (CheckEvent.isCounted b) = own →
        own.map CheckEvent.accepted =
          (limiter.run .new (own.map CheckEvent.call)).map CheckEvent.accepted ∧
        own.map CheckEvent.accepted =
          (limiter.limit.run none (own.map fun e => e.call.now)).map Spent.granted := by
  have hrefused : ∀ e ∈ limiter.run .new calls, e.saturated = true → e.accepted = false :=
    fun e he hfull => (PerIpRateLimiter.saturated_of_mem_run he hfull).1
  refine ⟨PerIpRateLimiter.after_length (Nat.zero_le _), fun b => ⟨fun t => ?_, ?_, ?_⟩⟩
  · have hcount := PerIpRateLimiter.countP_accepted b hrefused
      fun s => decide (t ≤ s.now) && decide (s.now < t + limiter.window)
    rw [PerIpRateLimiter.counted_run_new limiter b hsorted] at hcount
    refine Nat.le_trans (Nat.le_of_eq hcount) ?_
    have htimes : (((limiter.run .new calls).filter (CheckEvent.isCounted b)).map
        fun e => e.call.now).Pairwise (· ≤ ·) := by
      have hown := @PerIpRateLimiter.pairwise_own limiter .new _ b _ rfl hsorted
      rw [List.pairwise_map] at hown ⊢
      exact hown
    have hbound := @Limit.granted_in_interval limiter.limit none _ hmax hwindow htimes t
    simp only [Bool.and_assoc] at hbound
    exact hbound
  · intro front e mid back hrun hof hrestarted hmid
    have hown := PerIpRateLimiter.counted_run_new limiter b hsorted
    have hmem : ∀ e' ∈ e :: mid, e' ∈ limiter.run .new calls := by
      intro e' he'
      rw [hrun]
      exact List.mem_append_left _ (List.mem_append_right _ he')
    have hcounted : e.isCounted b = true := by
      unfold CheckEvent.isCounted
      rw [hof, Bool.true_and, Bool.not_eq_true']
      by_contra hfull
      have hno := (PerIpRateLimiter.saturated_of_mem_run (hmem e List.mem_cons_self)
        (Bool.not_eq_false _ ▸ hfull)).2
      rw [hrestarted] at hno
      exact nomatch hno
    rw [hrun, List.filter_append, List.filter_append, List.filter_cons_of_pos hcounted,
      List.map_append, List.map_append, List.map_cons] at hown
    have hbound := Limit.granted_between_restarts hmax hown.symm hrestarted fun s hs => by
      obtain ⟨e', he', rfl⟩ := List.mem_map.mp hs
      obtain ⟨he', hcounted'⟩ := List.mem_filter.mp he'
      unfold CheckEvent.isCounted at hcounted'
      rw [Bool.and_eq_true] at hcounted'
      exact hmid e' he' hcounted'.1
    have hcount := PerIpRateLimiter.countP_accepted b
      (fun e' he' hfull => hrefused e' (hmem e' he') hfull) fun _ => true
    simp only [Bool.and_true] at hcount
    rw [hcount, List.filter_cons_of_pos hcounted, List.map_cons]
    exact hbound
  · intro own hown
    have hspent := PerIpRateLimiter.own_run limiter b hsorted hown
    have haccepted := congrArg (List.map Spent.granted) hspent
    rw [List.map_map, List.map_map] at haccepted
    have hcounter := congrArg (List.map Spent.granted)
      (PerIpRateLimiter.counted_run_new limiter b hsorted)
    rw [hown, List.map_map] at hcounter
    exact ⟨haccepted, hcounter⟩

/-! ## An example -/

section Example

/-- Two requests a minute, two addresses, and their calls in seconds. -/
def smallLimiter : PerIpRateLimiter := ⟨2, 60, 2, false⟩

def clientIp (last : Nat) : IpAddr := .v4 (BitVec.ofNat 32 (0xCB007100 + last))

def clientCalls : List Check :=
  [⟨0, some (clientIp 1)⟩, ⟨1, some (clientIp 2)⟩, ⟨2, some (clientIp 3)⟩, ⟨3, some (clientIp 1)⟩,
    ⟨4, some (clientIp 1)⟩, ⟨60, some (clientIp 1)⟩]

/-- The third client is refused for saturation, the first for its budget until
its window is over. -/
example : (smallLimiter.run .new clientCalls).map CheckEvent.accepted =
    [true, true, false, true, false, true] := by decide +kernel

theorem small_limiter_budget :
    (smallLimiter.after .new clientCalls).counters.rows.length ≤ 2 ∧
    (smallLimiter.run .new clientCalls).countP (fun e => e.isOf (clientIp 1) && e.accepted &&
      (decide (3 ≤ e.call.now) && decide (e.call.now < 63))) ≤ 4 := by
  have hbudget := per_ip_budget smallLimiter (by decide) (by decide) clientCalls (by decide)
  exact ⟨hbudget.1, (hbudget.2 (clientIp 1)).1 3⟩

end Example

/-! ## The global budget -/

structure GlobalBudget where
  max : Nat
  window : Nat

namespace GlobalBudget

def limit (budget : GlobalBudget) : Limit := ⟨budget.max, budget.window, u32Max⟩

/-- `spend`, the state having been created with the budget. -/
def spend (budget : GlobalBudget) (now : Nat) (state : Window) : Bool × Window :=
  budget.limit.spend now (some state)

/-- The times of the calls that were granted. -/
def granted (budget : GlobalBudget) (state : Window) : List Nat → List Nat
  | [] => []
  | now :: rest =>
      let spent := budget.spend now state
      (if spent.1 then [now] else []) ++ granted budget spent.2 rest

theorem granted_eq (budget : GlobalBudget) (state : Window) (times : List Nat) :
    budget.granted state times =
      ((budget.limit.run (some state) times).filter Spent.granted).map Spent.now := by
  induction times generalizing state with
  | nil => rfl
  | cons now rest ih =>
      rw [granted, ih, Limit.run, List.filter_cons]
      show (if (budget.limit.spend now (some state)).1 then [now] else []) ++ _ = _
      by_cases h : (budget.limit.spend now (some state)).1 = true
      · rw [if_pos h, if_pos h]
        rfl
      · rw [if_neg h, if_neg h]
        rfl

/-- The lookups granted over any stretch of time of the length of the window are
at most twice the budget. -/
theorem granted_bound (budget : GlobalBudget) (hwindow : 0 < budget.window)
    (hmax : budget.max < u32Max) (state : Window) {times : List Nat}
    (hsorted : times.Pairwise (· ≤ ·)) (t : Nat) :
    (budget.granted state times).countP (fun now => t ≤ now && now < t + budget.window) ≤
      2 * budget.max := by
  have hbound := @Limit.granted_in_interval budget.limit (some state) _ hmax hwindow hsorted t
  rw [granted_eq, List.countP_map, List.countP_filter]
  refine Nat.le_trans (List.countP_mono_left fun s _ h => ?_) hbound
  rw [Bool.and_eq_true] at h
  rw [Bool.and_assoc, h.2, Bool.true_and]
  exact h.1

end GlobalBudget

end BlinkLnurl
