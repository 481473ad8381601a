import BlinkLnurl.Server.Effects

/-!
# Programs that run alone

What a part of a handler does when nobody else moves: the contract that relies
on the stores staying as they are between two calls, and the rules for the
calls it makes. `Runs.sound` turns what is proved with them into a fact about
every run of the part.
-/

namespace BlinkLnurl

open Conc

/-- Only time has passed. -/
structure SameStores (h h' : History) : Prop where
  accounts : h'.state.accounts = h.state.accounts
  payments : h'.state.payments = h.state.payments
  clock : h.state.clock.millis ≤ h'.state.clock.millis

theorem SameStores.refl (h : History) : SameStores h h := ⟨rfl, rfl, le_refl _⟩

theorem SameStores.trans {h₁ h₂ h₃ : History} (h : SameStores h₁ h₂) (h' : SameStores h₂ h₃) :
    SameStores h₁ h₃ :=
  ⟨h'.accounts.trans h.accounts, h'.payments.trans h.payments, h.clock.trans h'.clock⟩

def aloneContract : Contract Unit Call Reply World where
  inv _ := True
  rely _ := SameStores
  guard _ _ _ _ := True

variable {ok : History → CallEvent → Prop} {i : Nat} {h : History} {ε α β : Type}

theorem aloneContract_keeps : aloneContract.Keeps semantics ok where
  refl := fun _ h => .refl h
  trans := fun h h' => h.trans h'
  call := fun _ _ _ _ => trivial
  tick := fun _ _ => trivial
  ticks := fun {_ h t s'} _ htick => by
    obtain ⟨clock, hclock, rfl⟩ := Option.map_eq_some_iff.mp htick
    refine ⟨rfl, rfl, ?_⟩
    show h.state.clock.millis ≤ clock.millis
    unfold Clock.advance at hclock
    split at hclock
    · obtain rfl := Option.some.inj hclock
      exact Nat.le_add_right _ _
    · cases hclock

/-- A payment operation has run on the stores of `h`. -/
structure Ran (op : PaymentOp) (h h' : History) (result : op.Result) : Prop where
  run : ∃ order, op.run h'.state.clock.millis h.state.accounts.accountIdentifiers order
    h.state.payments = (result, h'.state.payments)
  accounts : h'.state.accounts = h.state.accounts
  clock : h.state.clock.millis ≤ h'.state.clock.millis

/-- A payment call: it runs or it fails. -/
theorem alone_payment {op : PaymentOp} {k : Reply (.payment op) → Prog Call Reply ε α}
    {Q : History → Except ε α → Prop}
    (hfail : ∀ h₁ e, SameStores h h₁ → ok h₁ ⟨i, .payment op, .error e⟩ →
      aloneContract.wp semantics ok i () (k (.error e)) Q
      (h₁.push ⟨i, .payment op, .error e⟩ h₁.state))
    (hran : ∀ h' result, Ran op h h' result →
      aloneContract.wp semantics ok i () (k (.ok result)) Q h') :
    aloneContract.wp semantics ok i () (.call (.payment op) k) Q h := by
  refine Contract.wp_call.mpr fun h₁ hsame _ => ⟨trivial, fun ch r s' hexec hok _ => ?_⟩
  rcases execPayment_cases (exec_payment hexec) with ⟨rfl, e, rfl⟩ | ⟨out, hout, rfl, rfl⟩
  · exact hfail h₁ e hsame hok
  · refine hran _ out.1 ⟨⟨ch.order, ?_⟩, hsame.accounts, hsame.clock⟩
    rw [hsame.accounts, hsame.payments] at hout
    exact hout

/-- A reading of the clock. -/
theorem alone_nowMillis {f : Int → Prog Call Reply ε α} {Q : History → Except ε α → Prop}
    (hnow : ∀ h', SameStores h h' →
      aloneContract.wp semantics ok i () (f h'.state.clock.millis) Q h') :
    aloneContract.wp semantics ok i () (nowMillis.bind f) Q h := by
  refine Contract.wp_call.mpr fun h₁ hsame _ => ⟨trivial, fun ch r s' hexec _ _ => ?_⟩
  have hexec : exec (.env .nowMillis) ch h₁.state = some (r, s') := hexec
  obtain ⟨rfl, hanswer⟩ := exec_env hexec
  obtain rfl := Option.some.inj hanswer
  exact hnow (h₁.push _ h₁.state) ⟨hsame.accounts, hsame.payments, hsame.clock⟩

end BlinkLnurl
