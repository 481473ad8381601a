import BlinkLnurl.Server.ZapWriters

/-!
# One receipt for each payment

A publisher writes the zap row back as a whole, with its own event. If another
publisher has stored a receipt since the row was read, that receipt is replaced;
and the callback, which reads no row, clears the receipt of an invoice that is
handed out once more (`receipts_kept`).
-/

namespace BlinkLnurl

open Conc Rel PaymentStore

/-- No stored receipt is replaced or cleared. -/
def KeepsReceipts (w w' : World) : Prop :=
  ∀ k e, w.receiptOf k = some e → w'.receiptOf k = some e

theorem KeepsReceipts.trans {w w' w'' : World} (h : KeepsReceipts w w')
    (h' : KeepsReceipts w' w'') :
    KeepsReceipts w w'' := fun k e he => h' k e (h k e he)

/-- The calls that a write of a zap row takes no account of: a publisher has read
the row before, the callback has not. -/
def unseenReceipts (i : Nat) (zap : Zap) (log : List CallEvent) : List CallEvent :=
  if zap.zapEvent.isNone then log
  else sinceLast (fun ev => decide (ev.thread = i) && (readsZap zap.paymentHash ev).isSome) log

/-- A zap row is written with the receipt that was stored since the thread has
read the row, if there was one. -/
def ReceiptAgreed (h : History) (ev : CallEvent) : Prop :=
  ∀ zap e, zapRow ev = some zap →
    lastReceipt zap.paymentHash (unseenReceipts ev.thread zap h.log) = some e →
      zap.zapEvent = some e

section Overtaken

variable {state : State} {clock : Clock} {cfg : Server} {i : Nat} {q : Request} {c : Call}
  {r : Reply c} {zap : Zap} {w' : World}

/-- A call that reads a zap row writes none. -/
theorem writesReceipt_of_zapRead {ev : CallEvent} {k : String} {row : Zap × Option Invoice}
    (hread : zapRead ev = some row) : writesReceipt k ev = none := by
  unfold zapRead at hread
  split at hread
  · rfl
  · rfl
  · cases hread

/-- What a write takes no account of has stored the receipt there is. -/
theorem lastReceipt_unseen
    (hreach : Reachable semantics always (handler state) (World.fresh clock) cfg)
    (hmay : MayWriteZap state q (cfg.hist.callsOf i) zap) :
    lastReceipt zap.paymentHash (unseenReceipts i zap cfg.hist.log) =
      lastReceipt zap.paymentHash cfg.hist.log := by
  unfold unseenReceipts
  by_cases hnone : zap.zapEvent.isNone = true
  · rw [if_pos hnone]
  · rw [if_neg hnone]
    obtain ⟨row, hempty⟩ := hmay.read fun h => hnone (Option.isNone_iff_eq_none.mpr h)
    obtain ⟨earlier, ev, later, hcalls, hev, hlater⟩ :=
      exists_of_lastWrite hempty.read (Option.some_ne_none _)
    obtain ⟨before, since, hlog, hsince⟩ := Hist.split_of_calls hcalls
    have hthread : ev.thread = i :=
      (Hist.mem_callsOf.mp (hcalls ▸ List.mem_append_right _ List.mem_cons_self)).2
    obtain ⟨hread, hk⟩ := read_of_readsZap hev
    have hunseen :
        sinceLast (fun ev => decide (ev.thread = i) && (readsZap zap.paymentHash ev).isSome)
        cfg.hist.log = since := by
      rw [hlog]
      refine sinceLast_split ?_ fun ev' hev' => ?_
      · rw [hev, decide_eq_true hthread]
        rfl
      · by_cases hmine : ev'.thread = i
        · rw [hlater ev' (hsince ev' hev' hmine), Option.isSome_none, Bool.and_false]
        · rw [decide_eq_false hmine, Bool.false_and]
    -- there was no receipt when the row was read
    obtain ⟨mid, mid', took, hmid⟩ := hreach.took_at hlog
    have hbefore : lastReceipt zap.paymentHash before = none := by
      obtain ⟨j, c, r⟩ := ev
      obtain ⟨_, _, ch, _, hexec, _⟩ := took.call
      obtain ⟨hstored, _⟩ := stored_of_zapRead hexec hread
      have hinv : ∀ k, mid.hist.state.receiptOf k = lastReceipt k mid.hist.log :=
        (Reachable.sound (zap_outline state) (zaps_initial state clock) took.before).inv.written
      rw [← hmid, ← hinv, ← hk]
      unfold World.receiptOf
      rw [hstored]
      exact hempty.empty
    rw [hunseen, hlog]
    exact (lastWrite_since hbefore (writesReceipt_of_zapRead hread)).symm

/-- A call keeps all receipts if and only if a zap row it writes agrees on the
receipt. -/
theorem keepsReceipts_iff
    (hreach : Reachable semantics always (handler state) (World.fresh clock) cfg)
    {k : Reply c → Handler Response} {ch : Choice c}
    (hth : cfg.threads[i]? = some ⟨q, .call c k⟩)
    (hexec : exec c ch cfg.hist.state = some (r, w')) :
    KeepsReceipts cfg.hist.state w' ↔ ReceiptAgreed cfg.hist ⟨i, c, r⟩ := by
  have hcfg := Reachable.sound (zap_outline state) (zaps_initial state clock) hreach
  have hguard := hcfg.guard zapContract_lawful.toKeeps hth
  have hinv : ∀ k, cfg.hist.state.receiptOf k = lastReceipt k cfg.hist.log := hcfg.inv.written
  cases hrow : zapRow ⟨i, c, r⟩ with
  | none =>
      refine iff_of_true (fun k e he => ?_) fun zap e h => ?_
      · unfold World.receiptOf
        rw [zaps_of_unwritten hexec hrow]
        exact he
      · rw [hrow] at h
        cases h
  | some zap =>
      have hmay : MayWriteZap state q (cfg.hist.callsOf i) zap := hguard zap (call_of_zapRow hrow)
      constructor
      · intro hkeeps zap' e hzap' hlast
        obtain rfl := Option.some.inj (hrow.symm.trans hzap')
        rw [lastReceipt_unseen hreach hmay, ← hinv] at hlast
        have hkept := hkeeps _ e hlast
        rw [receiptOf_of_written hexec hrow, if_pos rfl] at hkept
        exact hkept
      · intro hagreed k e he
        rw [receiptOf_of_written hexec hrow]
        by_cases hk : zap.paymentHash = k
        · subst hk
          rw [if_pos rfl]
          refine hagreed zap e hrow ?_
          rw [lastReceipt_unseen hreach hmay, ← hinv]
          exact he
        · rw [if_neg hk]
          exact he

/-- In a run of the server a call keeps all stored receipts exactly if a zap row
it writes has the receipt that was stored since its thread has read the row. So
there is one receipt for each payment hash in a run where no publisher is
overtaken by one with another event. -/
theorem receipts_kept
    (hreach : Reachable semantics always (handler state) (World.fresh clock) cfg) :
    (∀ i q c (k : Reply c → Handler Response) ch r w',
      cfg.threads[i]? = some ⟨q, .call c k⟩ → exec c ch cfg.hist.state = some (r, w') →
        (KeepsReceipts cfg.hist.state w' ↔ ReceiptAgreed cfg.hist ⟨i, c, r⟩)) ∧
    ∀ cfg', Steps semantics ReceiptAgreed (handler state) cfg cfg' →
      KeepsReceipts cfg.hist.state cfg'.hist.state := by
  refine ⟨fun i q c k ch r w' hth hexec => keepsReceipts_iff hreach hth hexec, ?_⟩
  intro cfg' hsteps
  induction hsteps with
  | refl => exact fun k e he => he
  | @tail mid cfg' hpre hstep ih =>
      have hmid : Reachable semantics always (handler state) (World.fresh clock) mid :=
        hreach.trans (Steps.mono (fun _ _ _ => trivial) hpre)
      refine ih.trans ?_
      cases hstep with
      | accept => exact fun k e he => he
      | call hth hexec hok => exact (keepsReceipts_iff hmid hth hexec).mpr hok
      | @tick t s' htick =>
          intro k e he
          obtain ⟨_, hpayments, _⟩ := tick_cases htick
          show (s'.payments.zaps.get k).bind Zap.zapEvent = some e
          rw [hpayments]
          exact he

/-- A call agrees on the receipt if and only if it writes no other than the log has. -/
theorem receiptAgreed_iff
    (hreach : Reachable semantics always (handler state) (World.fresh clock) cfg)
    {k : Reply c → Handler Response} (hth : cfg.threads[i]? = some ⟨q, .call c k⟩) (r : Reply c) :
    ReceiptAgreed cfg.hist ⟨i, c, r⟩ ↔ ∀ key e written, lastReceipt key cfg.hist.log = some e →
      writesReceipt key ⟨i, c, r⟩ = some written → written = some e := by
  have hguard := (Reachable.sound (zap_outline state) (zaps_initial state clock) hreach).guard
    zapContract_lawful.toKeeps hth
  constructor
  · intro hagreed key e written hlast hwrites
    obtain ⟨zap, hrow, hkey⟩ := Option.bind_eq_some_iff.mp hwrites
    split at hkey
    · rename_i hk
      subst hk
      rw [← Option.some.inj hkey]
      refine hagreed zap e hrow ?_
      rw [lastReceipt_unseen hreach (hguard zap (call_of_zapRow hrow))]
      exact hlast
    · cases hkey
  · intro hwrites zap e hrow hlast
    rw [lastReceipt_unseen hreach (hguard zap (call_of_zapRow hrow))] at hlast
    refine hwrites zap.paymentHash e zap.zapEvent hlast ?_
    rw [writesReceipt, hrow, Option.bind_some, if_pos rfl]

/-- The calls of a run all agree on the receipts if and only if one receipt was stored
for each payment hash, and none cleared. -/
theorem setOnce_iff (hreach : Reachable semantics always (handler state) (World.fresh clock) cfg) :
    (∀ k, SetOnce (writesReceipt k) cfg.hist.log) ↔
      Reachable semantics ReceiptAgreed (handler state) (World.fresh clock) cfg := by
  constructor
  · intro honce
    induction hreach with
    | refl => exact .refl
    | @tail mid cfg hpre hstep ih =>
        cases hstep with
        | accept q => exact (ih honce).tail (.accept q)
        | @call i q c k ch r s' hth hexec _ =>
            have honce : ∀ key, SetOnce (writesReceipt key) (mid.hist.log ++ [⟨i, c, r⟩]) := honce
            refine (ih fun key => (setOnce_concat.mp (honce key)).1).tail (.call hth hexec ?_)
            exact (receiptAgreed_iff hpre hth r).mpr fun key => (setOnce_concat.mp (honce key)).2
        | tick htick => exact (ih honce).tail (.tick htick)
  · intro hagreed
    clear hreach
    induction hagreed with
    | refl => exact fun _ => setOnce_nil
    | @tail mid cfg hpre hstep ih =>
        cases hstep with
        | accept => exact ih
        | @call i q c k ch r s' hth hexec hok =>
            have hmid := Steps.mono (fun _ _ _ => trivial) hpre
            exact fun key => setOnce_concat.mpr ⟨ih key, (receiptAgreed_iff hmid hth r).mp hok key⟩
        | tick => exact ih

/-- One receipt for each payment hash: in the runs whose calls all agree on it, and in
no others, is a receipt that was stored never replaced or cleared, whatever else was
going on; it is the one in the store. -/
theorem one_receipt_per_payment
    (hreach : Reachable semantics always (handler state) (World.fresh clock) cfg) :
    ((∀ k, SetOnce (writesReceipt k) cfg.hist.log) ↔
      Reachable semantics ReceiptAgreed (handler state) (World.fresh clock) cfg) ∧
    (Reachable semantics ReceiptAgreed (handler state) (World.fresh clock) cfg →
      ∀ k e, ∀ ev ∈ cfg.hist.log, writesReceipt k ev = some (some e) →
        cfg.hist.state.receiptOf k = some e) := by
  refine ⟨setOnce_iff hreach, fun hagreed k e ev hev hwrites => ?_⟩
  have hinv : ∀ k, cfg.hist.state.receiptOf k = lastReceipt k cfg.hist.log :=
    (Reachable.sound (zap_outline state) (zaps_initial state clock) hreach).inv.written
  rw [hinv]
  exact ((setOnce_iff hreach).mpr hagreed k).lastWrite_eq hev hwrites

end Overtaken

instance (h : History) (ev : CallEvent) : Decidable (ReceiptAgreed h ev) :=
  decidable_of_iff ((zapRow ev).all fun zap =>
      (lastReceipt zap.paymentHash (unseenReceipts ev.thread zap h.log)).all fun e =>
        zap.zapEvent = some e) <| by
    unfold ReceiptAgreed
    constructor
    · intro hall zap e hzap hlast
      rw [hzap, Option.all_some, hlast, Option.all_some] at hall
      exact of_decide_eq_true hall
    · intro hagreed
      rw [Option.all_eq_true_iff_get]
      intro hzap
      rw [Option.all_eq_true_iff_get]
      intro hlast
      refine decide_eq_true (hagreed _ _ (Option.some_get hzap).symm ?_)
      exact (Option.some_get hlast).symm

/-! ## Examples

The payee publishes a receipt whose preimage settles the invoice and queues the
receipt, so that the processor publishes one as well. -/

section Example

open Schedule

/-- The route is about to store its event, which the signer answered with `json`;
it has read the zap before the processor has stored its own. -/
def overtakenWith (json : String) : Schedule :=
  zapped ++ serve (publishes "receipt") ++ calls 2 13 { eventJson := json } ++
    serve (.processPendingZapReceipts 1) ++ calls 3 7 { eventJson := "w" }

theorem receipts_kept_twice :
    ∃ cfg cfg' : Server, Steps semantics ReceiptAgreed (handler zapServer) cfg cfg' ∧
      cfg.hist.state.receiptOf "aa" = some "w" ∧
      (cfg'.hist.log.getLast?.bind zapRow).isSome = true ∧
      cfg'.hist.state.receiptOf "aa" = some "w" := by
  have hbefore : (zapRun ReceiptAgreed (overtakenWith "w")).any (fun cfg =>
      cfg.hist.state.receiptOf "aa" = some "w") = true := by decide +kernel
  have hafter : (zapRun ReceiptAgreed (overtakenWith "w" ++ calls 2 1 { eventJson := "w" })).any
      (fun cfg' => (cfg'.hist.log.getLast?.bind zapRow).isSome) = true := by decide +kernel
  obtain ⟨cfg, cfg', hreach, hsteps, _, _, hstored, hwritten⟩ := steps_of_replay hbefore hafter
  have hstored := of_decide_eq_true hstored
  obtain ⟨_, hkept⟩ := receipts_kept (Steps.mono (fun _ _ _ => trivial) hreach)
  exact ⟨cfg, cfg', hsteps, hstored, hwritten, hkept cfg' hsteps "aa" "w" hstored⟩

/-- Both publishers store the one event they have. -/
theorem one_receipt_of_two_publishers :
    ∃ cfg : Server, (cfg.hist.log.countP fun ev => writesReceipt "aa" ev = some (some "w")) = 2 ∧
      (∀ k, SetOnce (writesReceipt k) cfg.hist.log) ∧ cfg.hist.state.receiptOf "aa" = some "w" := by
  have hrun : (zapRun ReceiptAgreed (overtakenWith "w" ++ calls 2 1 { eventJson := "w" })).any
      (fun cfg => cfg.hist.log.countP (fun ev => writesReceipt "aa" ev = some (some "w")) = 2) =
        true := by decide +kernel
  obtain ⟨cfg, hagreed, _, hcount⟩ := reachable_of_replay hrun
  have hcount := of_decide_eq_true hcount
  obtain ⟨ev, hev, hwrites⟩ := List.countP_pos_iff.mp (Nat.lt_of_lt_of_eq Nat.two_pos hcount.symm)
  obtain ⟨hiff, hstored⟩ := one_receipt_per_payment (Steps.mono (fun _ _ _ => trivial) hagreed)
  exact ⟨cfg, hcount, hiff.mpr hagreed, hstored hagreed "aa" "w" ev hev (of_decide_eq_true hwrites)⟩

/-- With two events the receipt of the processor is replaced. -/
theorem route_replaces_receipt :
    ∃ cfg cfg' : Server,
      Reachable semantics always (handler zapServer) (World.fresh ⟨1000000, by decide⟩) cfg ∧
      Step semantics always (handler zapServer) cfg cfg' ∧
      cfg'.request 2 = some (publishes "receipt") ∧
      cfg'.request 3 = some (.processPendingZapReceipts 1) ∧
      cfg.hist.state.receiptOf "aa" = some "w" ∧ cfg'.hist.state.receiptOf "aa" = some "r" ∧
      ¬ KeepsReceipts cfg.hist.state cfg'.hist.state := by
  have hbefore : (zapRun always (overtakenWith "r")).any (fun cfg =>
      cfg.hist.state.receiptOf "aa" = some "w") = true := by decide +kernel
  have hafter :
      (zapRun always (overtakenWith "r" ++ [.call 2 (Answers.choice {})])).any (fun cfg' =>
      cfg'.hist.state.receiptOf "aa" = some "r") = true := by decide +kernel
  obtain ⟨cfg, cfg', hreach, hstep, hserved, hstored, hreplaced⟩ := step_of_replay hbefore hafter
  have hstored := of_decide_eq_true hstored
  have hreplaced := of_decide_eq_true hreplaced
  refine ⟨cfg, cfg', hreach, hstep, hserved 2, hserved 3, hstored, hreplaced, fun hkeeps => ?_⟩
  have hkept := hkeeps "aa" "w" hstored
  rw [hreplaced] at hkept
  exact absurd (Option.some.inj hkept) (by decide)

end Example

end BlinkLnurl
