import BlinkLnurl.Server.Amounts
import BlinkLnurl.Server.SoundSettlement

/-!
# Settlements stay

Batches and expiries write no settled row. A settlement and the callback write
the row as a whole, whatever has become of it: the callback has not looked at
the row at all, and a settlement has found it unpaid in an earlier call. A
settled row is kept exactly if such a write has the preimage that is stored
(`settled_stays_iff`).
-/

namespace BlinkLnurl

open Conc Rel PaymentStore

/-- The preimage stored under a payment hash. -/
def World.preimageOf (w : World) (k : String) : Option String :=
  (w.payments.invoiceOf k).bind Invoice.preimage

/-- Settled invoices keep their preimage, and have not expired. -/
def KeepsSettled (w w' : World) : Prop :=
  ∀ k p, w.preimageOf k = some p →
    ∃ row, w'.payments.invoiceOf k = some row ∧ row.preimage = some p ∧ row.expiredAt = none

/-- A row written over a settled one has its preimage. -/
def PreimageAgreed (h : History) (ev : CallEvent) : Prop :=
  ∀ invoice p, wholeRow ev = some invoice →
    h.state.preimageOf invoice.paymentHash = some p → invoice.preimage = some p

theorem preimageOf_eq_some {w : World} {k p : String} :
    w.preimageOf k = some p ↔ ∃ row, w.payments.invoiceOf k = some row ∧ row.preimage = some p :=
  Option.bind_eq_some_iff

theorem KeepsSettled.trans {w w' w'' : World} (h : KeepsSettled w w') (h' : KeepsSettled w' w'') :
    KeepsSettled w w'' := by
  intro k p hp
  obtain ⟨row, hrow, hpreimage, _⟩ := h k p hp
  exact h' k p (preimageOf_eq_some.mpr ⟨row, hrow, hpreimage⟩)

section Stays

variable {state : State} {clock : Clock} {cfg : Server} {i : Nat} {q : Request} {c : Call}
  {r : Reply c} {w' : World}

/-- No settled row has expired. -/
theorem unexpired_of_reachable
    (hreach : Reachable semantics always (handler state) (World.fresh clock) cfg) {k : String}
    {row : Invoice} (hrow : cfg.hist.state.payments.invoiceOf k = some row)
    (hpaid : row.preimage ≠ none) : row.expiredAt = none :=
  ((Reachable.sound (payment_outline state) (payments_initial False clock) hreach).inv.1 k row
    hrow).settled hpaid

theorem keepsSettled_refl
    (hreach : Reachable semantics always (handler state) (World.fresh clock) cfg) :
    KeepsSettled cfg.hist.state cfg.hist.state := by
  intro k p hp
  obtain ⟨row, hrow, hpreimage⟩ := preimageOf_eq_some.mp hp
  have hpaid : row.preimage ≠ none := by rw [hpreimage]; exact Option.some_ne_none p
  exact ⟨row, hrow, hpreimage, unexpired_of_reachable hreach hrow hpaid⟩

/-- A call keeps all settlements if and only if a whole row it writes has the
preimage of the settled row it is written over. -/
theorem keepsSettled_iff
    (hreach : Reachable semantics always (handler state) (World.fresh clock) cfg)
    {k : Reply c → Handler Response} {ch : Choice c}
    (hth : cfg.threads[i]? = some ⟨q, .call c k⟩)
    (hexec : exec c ch cfg.hist.state = some (r, w')) :
    KeepsSettled cfg.hist.state w' ↔ PreimageAgreed cfg.hist ⟨i, c, r⟩ := by
  have hafter : ∀ k row, w'.payments.invoiceOf k = some row → row.preimage ≠ none →
      row.expiredAt = none := fun k row hrow hpaid =>
    unexpired_of_reachable (hreach.tail (.call hth hexec trivial)) hrow hpaid
  cases hwhole : wholeRow ⟨i, c, r⟩ with
  | none =>
      refine iff_of_true (fun k p hp => ?_) fun invoice p h => (by cases hwhole.symm.trans h)
      obtain ⟨row, hrow, hpreimage⟩ := preimageOf_eq_some.mp hp
      have hpaid : row.preimage ≠ none := by rw [hpreimage]; exact Option.some_ne_none p
      have hsame := settled_of_change (exec_invoice hexec k) hwhole hrow hpaid
      exact ⟨row, hsame, hpreimage, hafter k row hsame hpaid⟩
  | some invoice =>
      have hrow := invoiceOf_wholeRow hwhole hexec
      have hover : ∀ p, cfg.hist.state.preimageOf invoice.paymentHash = some p →
          ∃ row, w'.payments.invoiceOf invoice.paymentHash = some row ∧
            row.preimage = invoice.preimage := by
        intro p hp
        obtain ⟨old, hold, _⟩ := preimageOf_eq_some.mp hp
        refine ⟨overwriteInvoice invoice old, ?_, rfl⟩
        rw [hrow, if_pos rfl, hold, Option.elim_some]
      constructor
      · intro hkeeps invoice' p hinvoice hp
        obtain rfl := Option.some.inj (hwhole.symm.trans hinvoice)
        obtain ⟨row, hnew, hpreimage, _⟩ := hkeeps _ p hp
        obtain ⟨row', hnew', hpreimage'⟩ := hover p hp
        obtain rfl := Option.some.inj (hnew.symm.trans hnew')
        rw [← hpreimage', hpreimage]
      · intro hagreed k p hp
        have hpaid : ∀ {row : Invoice}, row.preimage = some p → row.preimage ≠ none :=
          fun h => by rw [h]; exact Option.some_ne_none p
        by_cases hk : k = invoice.paymentHash
        · subst hk
          obtain ⟨row, hnew, hpreimage⟩ := hover p hp
          rw [hagreed invoice p hwhole hp] at hpreimage
          exact ⟨row, hnew, hpreimage, hafter _ row hnew (hpaid hpreimage)⟩
        · obtain ⟨row, hold, hpreimage⟩ := preimageOf_eq_some.mp hp
          have hnew : w'.payments.invoiceOf k = some row := by
            rw [hrow, if_neg hk]
            exact hold
          exact ⟨row, hnew, hpreimage, hafter k row hnew (hpaid hpreimage)⟩

/-- In a run of the server a call keeps all settlements exactly if a whole row it
writes has the preimage of the settled row it is written over. Another preimage is
written by a callback, which writes none, or by a settlement that was overtaken
since it has read the row. So no settlement is lost in a run without such a write. -/
theorem settled_stays_iff
    (hreach : Reachable semantics always (handler state) (World.fresh clock) cfg) :
    (∀ i q c (k : Reply c → Handler Response) ch r w',
      cfg.threads[i]? = some ⟨q, .call c k⟩ → exec c ch cfg.hist.state = some (r, w') →
        (KeepsSettled cfg.hist.state w' ↔ PreimageAgreed cfg.hist ⟨i, c, r⟩) ∧
        ∀ invoice, wholeRow ⟨i, c, r⟩ = some invoice → MayWriteRow i cfg.hist invoice) ∧
    ∀ cfg', Steps semantics PreimageAgreed (handler state) cfg cfg' →
      KeepsSettled cfg.hist.state cfg'.hist.state := by
  have hcfg := Reachable.sound (amount_outline state) (amounts_initial clock) hreach
  refine ⟨fun i q c k ch r w' hth hexec => ⟨keepsSettled_iff hreach hth hexec, ?_⟩, ?_⟩
  · intro invoice hwhole
    exact hcfg.guard amountContract_lawful.toKeeps hth invoice (call_of_wholeRow hwhole)
  · intro cfg' hsteps
    induction hsteps with
    | refl => exact keepsSettled_refl hreach
    | @tail mid cfg' hpre hstep ih =>
        have hmid : Reachable semantics always (handler state) (World.fresh clock) mid :=
          hreach.trans (Steps.mono (fun _ _ _ => trivial) hpre)
        refine ih.trans ?_
        cases hstep with
        | accept => exact keepsSettled_refl hmid
        | call hth hexec hok => exact (keepsSettled_iff hmid hth hexec).mpr hok
        | @tick t s' htick =>
            obtain ⟨_, hpayments, _⟩ := tick_cases htick
            have hsame : KeepsSettled mid.hist.state mid.hist.state := keepsSettled_refl hmid
            intro k p hp
            obtain ⟨row, hrow, hrest⟩ := hsame k p hp
            refine ⟨row, ?_, hrest⟩
            show s'.payments.invoiceOf k = some row
            rw [hpayments]
            exact hrow

end Stays

instance (h : History) (ev : CallEvent) : Decidable (PreimageAgreed h ev) :=
  decidable_of_iff ((wholeRow ev).all fun invoice =>
      (h.state.preimageOf invoice.paymentHash).all fun p => invoice.preimage = some p) <| by
    unfold PreimageAgreed
    constructor
    · intro hall invoice p hinvoice hp
      rw [hinvoice, Option.all_some, hp, Option.all_some] at hall
      exact of_decide_eq_true hall
    · intro hagreed
      rw [Option.all_eq_true_iff_get]
      intro hinvoice
      rw [Option.all_eq_true_iff_get]
      intro hp
      exact decide_eq_true (hagreed _ _ (Option.some_get hinvoice).symm (Option.some_get hp).symm)

/-! ## Examples -/

section Example

open Schedule

/-- The second of two notifications of a payment writes the preimage there is. -/
theorem settled_stays_twice :
    ∃ cfg cfg' : Server,
      Steps semantics PreimageAgreed (handler payeeServer) cfg cfg' ∧
      cfg.hist.state.preimageOf "aa" = some "00" ∧
      (cfg'.hist.log.getLast?.bind wholeRow).isSome = true ∧
      ∃ row, cfg'.hist.state.payments.invoiceOf "aa" = some row ∧ row.preimage = some "00" ∧
        row.expiredAt = none := by
  have hbefore : (payeeRun PreimageAgreed reportedTwice).any (fun cfg =>
      cfg.hist.state.preimageOf "aa" = some "00") = true := by decide +kernel
  have hafter : (payeeRun PreimageAgreed (reportedTwice ++ calls 3 1)).any (fun cfg' =>
      (cfg'.hist.log.getLast?.bind wholeRow).isSome) = true := by decide +kernel
  obtain ⟨cfg, cfg', hreach, hsteps, _, _, hsettled, hwritten⟩ := steps_of_replay hbefore hafter
  have hsettled := of_decide_eq_true hsettled
  obtain ⟨_, hkept⟩ := settled_stays_iff (Steps.mono (fun _ _ _ => trivial) hreach)
  exact ⟨cfg, cfg', hsteps, hsettled, hwritten, hkept cfg' hsteps "aa" "00" hsettled⟩

/-- The callback has stored a comment when the payee reports the payment, and then
writes the row of an unpaid invoice over the settled one. -/
theorem callback_unsettles :
    ∃ cfg cfg' : Server,
      Reachable semantics always (handler (expiringServer 2000000))
        (World.fresh ⟨1000000, by decide⟩) cfg ∧
      Step semantics always (handler (expiringServer 2000000)) cfg cfg' ∧
      cfg'.request 1 = some asksWithComment ∧ cfg'.request 2 = some reportsBatch ∧
      cfg.hist.state.preimageOf "aa" = some "00" ∧
      (cfg'.hist.state.payments.invoiceOf "aa").map Invoice.preimage = some none ∧
      ¬ KeepsSettled cfg.hist.state cfg'.hist.state := by
  have hbefore : (replay semantics always (handler (expiringServer 2000000))
      (rowPending ++ serve reportsBatch ++ calls 2 4)
      (.initial (World.fresh ⟨1000000, startMillis_fits⟩))).any (fun cfg =>
        cfg.hist.state.preimageOf "aa" = some "00") = true := by decide +kernel
  have hafter : (replay semantics always (handler (expiringServer 2000000))
      (rowPending ++ serve reportsBatch ++ calls 2 4 ++ [.call 1 invoiceAnswer.choice])
      (.initial (World.fresh ⟨1000000, startMillis_fits⟩))).any (fun cfg' =>
        (cfg'.hist.state.payments.invoiceOf "aa").map Invoice.preimage = some none) = true := by
    decide +kernel
  obtain ⟨cfg, cfg', hreach, hstep, hserved, hsettled, hlost⟩ := step_of_replay hbefore hafter
  have hsettled := of_decide_eq_true hsettled
  have hlost := of_decide_eq_true hlost
  refine ⟨cfg, cfg', hreach, hstep, hserved 1, hserved 2, hsettled, hlost, fun hkeeps => ?_⟩
  obtain ⟨row, hrow, hpreimage, _⟩ := hkeeps "aa" "00" hsettled
  rw [hrow, Option.map_some, hpreimage] at hlost
  cases Option.some.inj hlost

end Example

end BlinkLnurl
