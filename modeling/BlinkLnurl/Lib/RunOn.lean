import BlinkLnurl.Lib.Prog

/-!
# Programs that are answered

Where the answer to a call is a function of the state, a program is a function
too. What it computes is what its runs come to in which no time passes
(`Runs.eq_runOn`), and there is such a run (`runs_of_runOn`).
-/

namespace Conc

variable {C : Type} {R : C → Type} {ε ε' α β σ : Type}

namespace Prog

/-- How `p` ends when its calls are answered; `none` if one of them has no
answer. -/
def runOn (answer : (c : C) → σ → Option (R c × σ)) : Prog C R ε α → σ → Option (Except ε α × σ)
  | .ret a, s => some (.ok a, s)
  | .fail e, s => some (.error e, s)
  | .call c k, s => (answer c s).bind fun out => (k out.1).runOn answer out.2

section RunOn

variable {answer : (c : C) → σ → Option (R c × σ)} {s s' : σ}

theorem runOn_ret {a : α} : (ret a : Prog C R ε α).runOn answer s = some (.ok a, s) := rfl

theorem runOn_call {c : C} {k : R c → Prog C R ε α} {r : R c} (h : answer c s = some (r, s')) :
    (call c k).runOn answer s = (k r).runOn answer s' := by
  rw [runOn, h]
  rfl

theorem runOn_bind {p : Prog C R ε α} {f : α → Prog C R ε β} {a : α}
    (h : p.runOn answer s = some (.ok a, s')) :
    (p.bind f).runOn answer s = (f a).runOn answer s' := by
  induction p generalizing s with
  | ret b =>
      obtain ⟨hb, hs⟩ := Prod.mk.inj (Option.some.inj h)
      rw [ret_bind, Except.ok.inj hb, hs]
  | fail e =>
      obtain ⟨he, _⟩ := Prod.mk.inj (Option.some.inj h)
      exact nomatch he
  | call c k ih =>
      obtain ⟨out, hout, hrest⟩ := Option.bind_eq_some_iff.mp h
      rw [call_bind, runOn_call hout]
      exact ih _ hrest

theorem runOn_mapError {p : Prog C R ε α} {f : ε → ε'} {x : Except ε α}
    (h : p.runOn answer s = some (x, s')) :
    (p.mapError f).runOn answer s = some (x.mapError f, s') := by
  induction p generalizing s with
  | ret a =>
      obtain ⟨rfl, rfl⟩ := Prod.mk.inj (Option.some.inj h)
      rfl
  | fail e =>
      obtain ⟨rfl, rfl⟩ := Prod.mk.inj (Option.some.inj h)
      rfl
  | call c k ih =>
      obtain ⟨out, hout, hrest⟩ := Option.bind_eq_some_iff.mp h
      rw [mapError, runOn_call hout]
      exact ih _ hrest

theorem runOn_attempt {p : Prog C R ε α} {x : Except ε α} (h : p.runOn answer s = some (x, s')) :
    (p.attempt : Prog C R ε' (Except ε α)).runOn answer s = some (.ok x, s') := by
  induction p generalizing s with
  | ret a =>
      obtain ⟨rfl, rfl⟩ := Prod.mk.inj (Option.some.inj h)
      rfl
  | fail e =>
      obtain ⟨rfl, rfl⟩ := Prod.mk.inj (Option.some.inj h)
      rfl
  | call c k ih =>
      obtain ⟨out, hout, hrest⟩ := Option.bind_eq_some_iff.mp h
      rw [attempt, runOn_call hout]
      exact ih _ hrest

end RunOn

end Prog

/-- The answers are those of the semantics: an admitted call is answered so, and
every answer can be got. Calls take no time, and a tick that takes no time does
nothing. -/
structure Answering (sem : Semantics C R σ) (ok : Hist C R σ → Event C R → Prop)
    (answer : (c : C) → σ → Option (R c × σ)) (time : σ → Nat) : Prop where
  only : ∀ {i c ch r out s'} {h : Hist C R σ}, answer c h.state = some out →
    sem.exec i c ch h.state = some (r, s') → ok h ⟨i, c, r⟩ → out = (r, s')
  exists_call : ∀ i {c r s'} {h : Hist C R σ}, answer c h.state = some (r, s') →
    ∃ ch, sem.exec i c ch h.state = some (r, s') ∧ ok h ⟨i, c, r⟩
  call : ∀ {i c ch s r s'}, sem.exec i c ch s = some (r, s') → time s' = time s
  tick : ∀ {t s s'}, sem.tick t s = some s' → time s ≤ time s' ∧ (time s' = time s → s' = s)

section Runs

variable {sem : Semantics C R σ} {ok : Hist C R σ → Event C R → Prop}
  {answer : (c : C) → σ → Option (R c × σ)} {time : σ → Nat} {i : Nat} {p : Prog C R ε α}
  {h h' : Hist C R σ} {res res' : Except ε α} {s' : σ}

theorem Runs.time_le (agree : Answering sem ok answer time) (hruns : Runs sem ok i p h res h') :
    time h.state ≤ time h'.state := by
  induction hruns with
  | ret => exact Nat.le_refl _
  | fail => exact Nat.le_refl _
  | call hexec _ _ ih => exact Nat.le_trans (Nat.le_of_eq (agree.call hexec).symm) ih
  | tick htick _ ih => exact Nat.le_trans (agree.tick htick).1 ih

/-- A run in which no time passes ends as its program computes. -/
theorem Runs.eq_runOn (agree : Answering sem ok answer time) (hruns : Runs sem ok i p h res h')
    (htime : time h'.state = time h.state) (hend : p.runOn answer h.state = some (res', s')) :
    res = res' ∧ h'.state = s' := by
  induction hruns with
  | ret =>
      obtain ⟨rfl, rfl⟩ := Prod.mk.inj (Option.some.inj hend)
      exact ⟨rfl, rfl⟩
  | fail =>
      obtain ⟨rfl, rfl⟩ := Prod.mk.inj (Option.some.inj hend)
      exact ⟨rfl, rfl⟩
  | call hexec hok _ ih =>
      obtain ⟨out, hout, hrest⟩ := Option.bind_eq_some_iff.mp hend
      obtain rfl := agree.only hout hexec hok
      exact ih (htime.trans (agree.call hexec).symm) hrest
  | tick htick hrest ih =>
      obtain ⟨hle, hsame⟩ := agree.tick htick
      have hstate := hsame (Nat.le_antisymm (htime ▸ hrest.time_le agree) hle)
      subst hstate
      exact ih htime hend

/-- A program that computes an end runs to it. -/
theorem runs_of_runOn (agree : Answering sem ok answer time) (i : Nat)
    (hend : p.runOn answer h.state = some (res, s')) :
    ∃ h', Runs sem ok i p h res h' ∧ h'.state = s' := by
  induction p generalizing h with
  | ret a =>
      obtain ⟨rfl, rfl⟩ := Prod.mk.inj (Option.some.inj hend)
      exact ⟨h, .ret, rfl⟩
  | fail e =>
      obtain ⟨rfl, rfl⟩ := Prod.mk.inj (Option.some.inj hend)
      exact ⟨h, .fail, rfl⟩
  | call c k ih =>
      obtain ⟨out, hout, hrest⟩ := Option.bind_eq_some_iff.mp hend
      obtain ⟨ch, hexec, hok⟩ := agree.exists_call i hout
      obtain ⟨h', hruns, hstate⟩ := ih out.1 (h := h.push ⟨i, c, out.1⟩ out.2) hrest
      exact ⟨h', .call hexec hok hruns, hstate⟩

end Runs

end Conc
