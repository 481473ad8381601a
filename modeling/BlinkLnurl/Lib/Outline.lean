import BlinkLnurl.Lib.Prog

/-!
# Proof outlines for concurrent handlers

A `Contract` is what the threads of a pool agree on: an invariant of the
history, what thread `i` may rely on while others move (`rely i`), and which
calls a request may make in which history (`guard`). `Lawful` says that every
call within the guard keeps the invariant and is within what all other threads
rely on; that is checked once per call, not once per handler.

`wp` is the weakest precondition of a program under a contract: at each call
the history may first move on by `rely`, then the guard has to hold, then the
rest has to be fine for every reply. It composes along `bind`, `attempt` and
`mapError`, and it survives interference (`wp_stable`).

`Reachable.sound` is the run lemma: if every handler meets its `wp` when it is
accepted, then in every reachable configuration the invariant holds and every
thread meets the `wp` of what is left of it. `Runs.sound` is the same for one
program that runs alone, and `Serially.sound` for requests served one at a
time; there threads rely on nothing, and the contract only has to `Keep` its
invariant.
-/

namespace Conc

variable {ρ C : Type} {R : C → Type} {ε ε' ω α β σ : Type}

/-- What the threads of a pool agree on. -/
structure Contract (ρ C : Type) (R : C → Type) (σ : Type) where
  inv : Hist C R σ → Prop
  rely : Nat → Hist C R σ → Hist C R σ → Prop
  guard : Nat → ρ → Hist C R σ → C → Prop

namespace Contract

/-- Calls within the guard keep the invariant, and threads can live with
ticks. -/
structure Keeps (K : Contract ρ C R σ) (sem : Semantics C R σ)
    (ok : Hist C R σ → Event C R → Prop) : Prop where
  refl : ∀ i h, K.rely i h h
  trans : ∀ {i h₁ h₂ h₃}, K.rely i h₁ h₂ → K.rely i h₂ h₃ → K.rely i h₁ h₃
  call : ∀ {i q h c ch r s'}, K.inv h → K.guard i q h c → sem.exec i c ch h.state = some (r, s') →
    ok h ⟨i, c, r⟩ → K.inv (h.push ⟨i, c, r⟩ s')
  tick : ∀ {h : Hist C R σ} {t s'}, K.inv h → sem.tick t h.state = some s' →
    K.inv { h with state := s' }
  ticks : ∀ {j} {h : Hist C R σ} {t s'}, K.inv h → sem.tick t h.state = some s' →
    K.rely j h { h with state := s' }

/-- Moreover no thread does to another what that one relies on not
happening. -/
structure Lawful (K : Contract ρ C R σ) (sem : Semantics C R σ)
    (ok : Hist C R σ → Event C R → Prop) : Prop extends Keeps K sem ok where
  others : ∀ {i j q h c ch r s'}, K.inv h → K.guard i q h c →
    sem.exec i c ch h.state = some (r, s') → ok h ⟨i, c, r⟩ → j ≠ i →
      K.rely j h (h.push ⟨i, c, r⟩ s')

variable (K : Contract ρ C R σ) (sem : Semantics C R σ) (ok : Hist C R σ → Event C R → Prop)
  (i : Nat) (q : ρ)

/-- The weakest precondition for thread `i`, serving `q`, to run `p` within
the contract and to end in `Q`. -/
def wp : Prog C R ε α → (Hist C R σ → Except ε α → Prop) → Hist C R σ → Prop
  | .ret a, Q, h => Q h (.ok a)
  | .fail e, Q, h => Q h (.error e)
  | .call c k, Q, h => ∀ h₁, K.rely i h h₁ → K.inv h₁ →
      K.guard i q h₁ c ∧ ∀ ch r s', sem.exec i c ch h₁.state = some (r, s') →
        ok h₁ ⟨i, c, r⟩ → K.inv (h₁.push ⟨i, c, r⟩ s') →
          wp (k r) Q (h₁.push ⟨i, c, r⟩ s')

variable {K sem ok i q}

@[simp] theorem wp_ret {a : α} {Q : Hist C R σ → Except ε α → Prop} {h : Hist C R σ} :
    K.wp sem ok i q (.ret a) Q h ↔ Q h (.ok a) := Iff.rfl

@[simp] theorem wp_fail {e : ε} {Q : Hist C R σ → Except ε α → Prop} {h : Hist C R σ} :
    K.wp sem ok i q (.fail e) Q h ↔ Q h (.error e) := Iff.rfl

theorem wp_call {c : C} {k : R c → Prog C R ε α} {Q : Hist C R σ → Except ε α → Prop}
    {h : Hist C R σ} :
    K.wp sem ok i q (.call c k) Q h ↔ ∀ h₁, K.rely i h h₁ → K.inv h₁ →
      K.guard i q h₁ c ∧ ∀ ch r s', sem.exec i c ch h₁.state = some (r, s') →
        ok h₁ ⟨i, c, r⟩ → K.inv (h₁.push ⟨i, c, r⟩ s') →
          K.wp sem ok i q (k r) Q (h₁.push ⟨i, c, r⟩ s') := Iff.rfl

/-- A weaker postcondition needs less. -/
theorem wp_mono {p : Prog C R ε α} {Q Q' : Hist C R σ → Except ε α → Prop} {h : Hist C R σ}
    (himp : ∀ h r, Q h r → Q' h r) (hp : K.wp sem ok i q p Q h) : K.wp sem ok i q p Q' h := by
  induction p generalizing h with
  | ret a => exact himp _ _ hp
  | fail e => exact himp _ _ hp
  | call c k ih =>
      intro h₁ hrely hinv
      obtain ⟨hguard, hrest⟩ := hp h₁ hrely hinv
      exact ⟨hguard, fun ch r s' hexec hok hinv' => ih r (hrest ch r s' hexec hok hinv')⟩

/-- Sequential composition. -/
theorem wp_bind {p : Prog C R ε α} {f : α → Prog C R ε β} {Q : Hist C R σ → Except ε β → Prop}
    {h : Hist C R σ} :
    K.wp sem ok i q (p.bind f) Q h ↔
      K.wp sem ok i q p (fun h r =>
        match r with
        | .ok a => K.wp sem ok i q (f a) Q h
        | .error e => Q h (.error e)) h := by
  induction p generalizing h with
  | ret a => exact Iff.rfl
  | fail e => exact Iff.rfl
  | call c k ih => simp only [Prog.call_bind, wp_call, ih]

theorem wp_ofExcept {x : Except ε α} {Q : Hist C R σ → Except ε α → Prop} {h : Hist C R σ} :
    K.wp sem ok i q (Prog.ofExcept x) Q h ↔ Q h x := by
  cases x <;> exact Iff.rfl

theorem wp_require {c : Prop} [Decidable c] {e : ε} {Q : Hist C R σ → Except ε Unit → Prop}
    {h : Hist C R σ} :
    K.wp sem ok i q (Prog.require c e) Q h ↔ (c → Q h (.ok ())) ∧ (¬ c → Q h (.error e)) := by
  unfold Prog.require
  by_cases hc : c
  · simp [hc]
  · simp [hc]

theorem wp_attempt {p : Prog C R ε α} {Q : Hist C R σ → Except ε' (Except ε α) → Prop}
    {h : Hist C R σ} :
    K.wp sem ok i q p.attempt Q h ↔ K.wp sem ok i q p (fun h r => Q h (.ok r)) h := by
  induction p generalizing h with
  | ret a => exact Iff.rfl
  | fail e => exact Iff.rfl
  | call c k ih => simp only [Prog.attempt, wp_call, ih]

theorem wp_mapError {p : Prog C R ε α} {f : ε → ε'} {Q : Hist C R σ → Except ε' α → Prop}
    {h : Hist C R σ} :
    K.wp sem ok i q (p.mapError f) Q h ↔
      K.wp sem ok i q p (fun h r => Q h (r.mapError f)) h := by
  induction p generalizing h with
  | ret a => exact Iff.rfl
  | fail e => exact Iff.rfl
  | call c k ih => simp only [Prog.mapError, wp_call, ih]

/-- Interference within `rely` does not spoil a precondition whose
postcondition survives it. -/
theorem wp_stable (law : K.Keeps sem ok) {p : Prog C R ε α}
    {Q : Hist C R σ → Except ε α → Prop} {h h' : Hist C R σ}
    (hQ : ∀ {h h' r}, K.rely i h h' → K.inv h' → Q h r → Q h' r)
    (hrely : K.rely i h h') (hinv : K.inv h') (hp : K.wp sem ok i q p Q h) :
    K.wp sem ok i q p Q h' := by
  cases p with
  | ret a => exact hQ hrely hinv hp
  | fail e => exact hQ hrely hinv hp
  | call c k => exact fun h₁ hrely₁ hinv₁ => hp h₁ (law.trans hrely hrely₁) hinv₁

/-- A fact that neither the thread nor the others spoil holds at the end. -/
theorem wp_keep {I : Hist C R σ → Prop} (hrely : ∀ {h h'}, K.rely i h h' → I h → I h')
    (hcall : ∀ {h c ch r s'}, K.inv h → K.guard i q h c → sem.exec i c ch h.state = some (r, s') →
      ok h ⟨i, c, r⟩ → I h → I (h.push ⟨i, c, r⟩ s'))
    {p : Prog C R ε α} {Q : Hist C R σ → Except ε α → Prop} {h : Hist C R σ}
    (hp : K.wp sem ok i q p Q h) (hI : I h) :
    K.wp sem ok i q p (fun h r => Q h r ∧ I h) h := by
  induction p generalizing h with
  | ret a => exact ⟨hp, hI⟩
  | fail e => exact ⟨hp, hI⟩
  | call c k ih =>
      intro h₁ hrely₁ hinv
      obtain ⟨hguard, hrest⟩ := hp h₁ hrely₁ hinv
      refine ⟨hguard, fun ch r s' hexec hok hinv' => ?_⟩
      exact ih r (hrest ch r s' hexec hok hinv') (hcall hinv hguard hexec hok (hrely hrely₁ hI))

end Contract

/-! ## Carrying a fact

A thread carries a fact `I` about the history along its program: other threads
keep it, and so do the thread's own calls in `P`. -/

namespace Contract

variable {K : Contract ρ C R σ} {sem : Semantics C R σ} {ok : Hist C R σ → Event C R → Prop}
  {i : Nat} {q : ρ} {P : C → Prop} {I : Hist C R σ → Prop}

/-- What a thread needs of `P` and `I` to make calls in `P` and keep `I`. -/
structure Carries (K : Contract ρ C R σ) (sem : Semantics C R σ)
    (ok : Hist C R σ → Event C R → Prop) (i : Nat) (q : ρ) (P : C → Prop)
    (I : Hist C R σ → Prop) : Prop where
  rely : ∀ {h h'}, K.rely i h h' → I h → I h'
  guard : ∀ {h c}, K.inv h → P c → K.guard i q h c
  call : ∀ {h c ch r s'}, K.inv h → P c → sem.exec i c ch h.state = some (r, s') →
    ok h ⟨i, c, r⟩ → I h → I (h.push ⟨i, c, r⟩ s')

theorem Carries.wp (carries : K.Carries sem ok i q P I) {p : Prog C R ε α} {V : α → Prop}
    (hp : p.Calls P) (hv : p.Returns V) {h : Hist C R σ} (hI : I h) :
    K.wp sem ok i q p (fun h r => I h ∧ ∀ a, r = .ok a → V a) h := by
  induction p generalizing h with
  | ret a =>
      refine ⟨hI, fun b hb => ?_⟩
      cases hb
      exact Prog.returns_ret.mp hv
  | fail e => exact ⟨hI, fun b hb => by cases hb⟩
  | call c k ih =>
      intro h₁ hrely hinv
      obtain ⟨hc, hk⟩ := Prog.calls_call.mp hp
      have hI₁ := carries.rely hrely hI
      refine ⟨carries.guard hinv hc, ?_⟩
      intro ch r s' hexec hok _
      exact ih r (hk r) (Prog.returns_call.mp hv r) (carries.call hinv hc hexec hok hI₁)

/-- A first part that only makes calls in `P` and returns something in `V`. -/
theorem Carries.bind_returns (carries : K.Carries sem ok i q P I) {p : Prog C R ε α} {V : α → Prop}
    {f : α → Prog C R ε β} {Q : Hist C R σ → Except ε β → Prop} (hp : p.Calls P)
    (hv : p.Returns V) (herr : ∀ {h e}, I h → Q h (.error e)) {h : Hist C R σ} (hI : I h)
    (hf : ∀ a h, V a → I h → K.wp sem ok i q (f a) Q h) : K.wp sem ok i q (p.bind f) Q h := by
  refine wp_bind.mpr (wp_mono ?_ (carries.wp hp hv hI))
  intro h r ⟨hI, hV⟩
  cases r with
  | ok a => exact hf a h (hV a rfl) hI
  | error e => exact herr hI

/-- A first part that only makes calls in `P`. -/
theorem Carries.bind (carries : K.Carries sem ok i q P I) {p : Prog C R ε α}
    {f : α → Prog C R ε β} {Q : Hist C R σ → Except ε β → Prop} (hp : p.Calls P)
    (herr : ∀ {h e}, I h → Q h (.error e)) {h : Hist C R σ} (hI : I h)
    (hf : ∀ a h, I h → K.wp sem ok i q (f a) Q h) : K.wp sem ok i q (p.bind f) Q h :=
  carries.bind_returns hp (Prog.returns_true p) herr hI fun a h _ hI => hf a h hI

/-- A last part that only makes calls in `P`. -/
theorem Carries.last (carries : K.Carries sem ok i q P I) {p : Prog C R ε α}
    {Q : Hist C R σ → Except ε α → Prop} (hp : p.Calls P) (hQ : ∀ {h r}, I h → Q h r)
    {h : Hist C R σ} (hI : I h) : K.wp sem ok i q p Q h :=
  wp_mono (fun _ _ hI => hQ hI.1) (carries.wp hp (Prog.returns_true p) hI)

/-- A first part that only makes calls in `P`, whose failure is looked at. -/
theorem Carries.attempt_bind (carries : K.Carries sem ok i q P I) {p : Prog C R ε' α}
    {f : Except ε' α → Prog C R ε β} {Q : Hist C R σ → Except ε β → Prop} (hp : p.Calls P)
    {h : Hist C R σ} (hI : I h) (hf : ∀ r h, I h → K.wp sem ok i q (f r) Q h) :
    K.wp sem ok i q (p.attempt.bind f) Q h := by
  refine wp_bind.mpr (wp_attempt.mpr (wp_mono ?_ (carries.wp hp (Prog.returns_true p) hI)))
  intro h r hI
  exact hf r h hI.1

/-- A result that is already there, then the rest. -/
theorem wp_ofExcept_bind {x : Except ε α} {f : α → Prog C R ε β}
    {Q : Hist C R σ → Except ε β → Prop} {h : Hist C R σ} (herr : ∀ e, Q h (.error e))
    (hf : ∀ a, x = .ok a → K.wp sem ok i q (f a) Q h) :
    K.wp sem ok i q ((Prog.ofExcept x).bind f) Q h := by
  cases x with
  | ok a => exact hf a rfl
  | error e => exact herr e

/-- A check, then the rest. -/
theorem wp_require_bind {c : Prop} [Decidable c] {e : ε} {f : Unit → Prog C R ε β}
    {Q : Hist C R σ → Except ε β → Prop} {h : Hist C R σ} (herr : Q h (.error e))
    (hf : c → K.wp sem ok i q (f ()) Q h) :
    K.wp sem ok i q ((Prog.require c e).bind f) Q h := by
  unfold Prog.require
  by_cases hc : c
  · rw [if_pos hc]
    exact hf hc
  · rw [if_neg hc]
    exact herr

end Contract

/-! ## The run lemmas -/

section Sound

variable {sem : Semantics C R σ} {ok : Hist C R σ → Event C R → Prop}

/-- The pool's proof obligations: the contract is lawful, postconditions
survive interference, and each handler meets its precondition when accepted. -/
structure Outline (K : Contract ρ C R σ) (sem : Semantics C R σ)
    (ok : Hist C R σ → Event C R → Prop) (handler : ρ → Prog C R ε ω)
    (post : Nat → ρ → Hist C R σ → Except ε ω → Prop) : Prop where
  lawful : K.Lawful sem ok
  post_stable : ∀ {i q h h' r}, K.rely i h h' → K.inv h' → post i q h r → post i q h' r
  accept : ∀ {i q h}, K.inv h → (∀ ev ∈ h.log, ev.thread < i) →
    K.wp sem ok i q (handler q) (post i q) h

variable {K : Contract ρ C R σ} {handler : ρ → Prog C R ε ω}
  {post : Nat → ρ → Hist C R σ → Except ε ω → Prop}

/-- What the run lemma carries along a run. -/
structure Outlined (K : Contract ρ C R σ) (sem : Semantics C R σ)
    (ok : Hist C R σ → Event C R → Prop)
    (post : Nat → ρ → Hist C R σ → Except ε ω → Prop) (cfg : Config ρ C R ε ω σ) : Prop where
  inv : K.inv cfg.hist
  bound : ∀ ev ∈ cfg.hist.log, ev.thread < cfg.threads.length
  thread : ∀ {i th}, cfg.threads[i]? = some th →
    K.wp sem ok i th.request th.prog (post i th.request) cfg.hist

/-- A new thread starts within the outline. -/
theorem Outlined.accept {cfg : Config ρ C R ε ω σ} (hcfg : Outlined K sem ok post cfg) {q : ρ}
    {p : Prog C R ε ω} (hp : ∀ i, (∀ ev ∈ cfg.hist.log, ev.thread < i) →
      K.wp sem ok i q p (post i q) cfg.hist) :
    Outlined K sem ok post { cfg with threads := cfg.threads ++ [⟨q, p⟩] } := by
  refine ⟨hcfg.inv, ?_, ?_⟩
  · intro ev hev
    have hlt := hcfg.bound ev hev
    simp only [List.length_append, List.length_singleton]
    omega
  · intro i th hth
    rcases Nat.lt_trichotomy i cfg.threads.length with hi | hi | hi
    · rw [List.getElem?_append_left hi] at hth
      exact hcfg.thread hth
    · subst hi
      rw [List.getElem?_concat_length] at hth
      cases hth
      exact hp _ hcfg.bound
    · rw [List.getElem?_eq_none (by simp; omega)] at hth
      cases hth

/-- The moving thread proceeds; of the others it is enough that they keep
their preconditions. -/
theorem Outlined.call (law : K.Keeps sem ok) {cfg : Config ρ C R ε ω σ}
    (hcfg : Outlined K sem ok post cfg) {i : Nat} {q : ρ} {c : C} {k : R c → Prog C R ε ω}
    {ch : sem.Choice c} {r : R c} {s' : σ} (hth : cfg.threads[i]? = some ⟨q, .call c k⟩)
    (hexec : sem.exec i c ch cfg.hist.state = some (r, s')) (hok : ok cfg.hist ⟨i, c, r⟩)
    (hothers : ∀ {j th}, i ≠ j → cfg.threads[j]? = some th → K.guard i q cfg.hist c →
      K.inv (cfg.hist.push ⟨i, c, r⟩ s') →
      K.wp sem ok j th.request th.prog (post j th.request) (cfg.hist.push ⟨i, c, r⟩ s')) :
    Outlined K sem ok post
      { hist := cfg.hist.push ⟨i, c, r⟩ s', threads := cfg.threads.set i ⟨q, k r⟩ } := by
  obtain ⟨hguard, hrest⟩ := hcfg.thread hth cfg.hist (law.refl i _) hcfg.inv
  have hinv := law.call hcfg.inv hguard hexec hok
  have hi : i < cfg.threads.length := (List.getElem?_eq_some_iff.mp hth).1
  refine ⟨hinv, ?_, ?_⟩
  · intro ev hev
    simp only [Hist.push_log, List.mem_append, List.mem_singleton] at hev
    rw [List.length_set]
    rcases hev with hev | rfl
    · exact hcfg.bound ev hev
    · exact hi
  · intro j th hj
    by_cases hij : i = j
    · subst hij
      rw [List.getElem?_set_self hi] at hj
      cases hj
      exact hrest ch r s' hexec hok hinv
    · rw [List.getElem?_set_ne hij] at hj
      exact hothers hij hj hguard hinv

theorem Outlined.tick (law : K.Keeps sem ok)
    (hpost : ∀ {i q h h' r}, K.rely i h h' → K.inv h' → post i q h r → post i q h' r)
    {cfg : Config ρ C R ε ω σ} (hcfg : Outlined K sem ok post cfg) {t : sem.Tick} {s' : σ}
    (htick : sem.tick t cfg.hist.state = some s') :
    Outlined K sem ok post { cfg with hist := { cfg.hist with state := s' } } := by
  have hinv := law.tick hcfg.inv htick
  refine ⟨hinv, hcfg.bound, ?_⟩
  intro j th hj
  exact Contract.wp_stable law hpost (law.ticks hcfg.inv htick) hinv (hcfg.thread hj)

/-- The step lemma: one step of the pool keeps the outline. -/
theorem Outline.step (O : Outline K sem ok handler post) {cfg cfg' : Config ρ C R ε ω σ}
    (hcfg : Outlined K sem ok post cfg) (hstep : Step sem ok handler cfg cfg') :
    Outlined K sem ok post cfg' := by
  cases hstep with
  | accept q => exact hcfg.accept fun _ => O.accept hcfg.inv
  | call hth hexec hok =>
      refine hcfg.call O.lawful.toKeeps hth hexec hok ?_
      intro j th hne hj hguard hinv
      have hrely := O.lawful.others hcfg.inv hguard hexec hok (Ne.symm hne)
      exact Contract.wp_stable O.lawful.toKeeps O.post_stable hrely hinv (hcfg.thread hj)
  | tick htick =>
      refine hcfg.tick O.lawful.toKeeps ?_ htick
      exact O.post_stable

/-- The run lemma. -/
theorem Outline.steps (O : Outline K sem ok handler post) {cfg cfg' : Config ρ C R ε ω σ}
    (hcfg : Outlined K sem ok post cfg) (hsteps : Steps sem ok handler cfg cfg') :
    Outlined K sem ok post cfg' := by
  induction hsteps with
  | refl => exact hcfg
  | tail _ hstep ih => exact O.step ih hstep

theorem Outlined.initial {s₀ : σ} (hinit : K.inv { state := s₀, log := [] }) :
    Outlined K sem ok post (.initial s₀ : Config ρ C R ε ω σ) where
  inv := hinit
  bound := fun ev hev => absurd hev List.not_mem_nil
  thread := fun hth => by simp [Config.initial] at hth

/-- In every reachable configuration the invariant holds and every thread
meets the precondition of the rest of its program. -/
theorem Reachable.sound (O : Outline K sem ok handler post) {s₀ : σ}
    (hinit : K.inv { state := s₀, log := [] }) {cfg : Config ρ C R ε ω σ}
    (h : Reachable sem ok handler s₀ cfg) : Outlined K sem ok post cfg :=
  O.steps (.initial hinit) h

/-- A thread about to call is within its guard. -/
theorem Outlined.guard (law : K.Keeps sem ok) {cfg : Config ρ C R ε ω σ}
    (hcfg : Outlined K sem ok post cfg) {i : Nat} {q : ρ} {c : C} {k : R c → Prog C R ε ω}
    (hth : cfg.threads[i]? = some ⟨q, .call c k⟩) : K.guard i q cfg.hist c :=
  (hcfg.thread hth cfg.hist (law.refl i _) hcfg.inv).1

/-- A finished thread is in its postcondition. -/
theorem Outlined.finished {cfg : Config ρ C R ε ω σ} (hcfg : Outlined K sem ok post cfg)
    {i : Nat} {res : Except ε ω} (h : cfg.outcome i = some res) :
    ∃ q, cfg.request i = some q ∧ post i q cfg.hist res := by
  obtain ⟨q, hq, hth⟩ := Config.thread_of_outcome h
  exact ⟨q, hq, Contract.wp_ofExcept.mp (hcfg.thread hth)⟩

/-- Every call in the log was made for the request of its thread, so what the
guard says of that request's calls it says of the log. -/
theorem Reachable.events (O : Outline K sem ok handler post) {s₀ : σ}
    (hinit : K.inv { state := s₀, log := [] }) {G : Nat → ρ → Event C R → Prop}
    (hcall : ∀ {i q h c ch r s'}, K.inv h → K.guard i q h c →
      sem.exec i c ch h.state = some (r, s') → ok h ⟨i, c, r⟩ → G i q ⟨i, c, r⟩)
    {cfg : Config ρ C R ε ω σ} (h : Reachable sem ok handler s₀ cfg) :
    ∀ ev ∈ cfg.hist.log, ∃ q, cfg.request ev.thread = some q ∧ G ev.thread q ev := by
  induction h with
  | refl => exact fun ev hev => absurd hev List.not_mem_nil
  | @tail mid cfg hpre hstep ih =>
      have hmid := Reachable.sound O hinit hpre
      have old : ∀ ev ∈ mid.hist.log, ∃ q, cfg.request ev.thread = some q ∧ G ev.thread q ev := by
        intro ev hev
        obtain ⟨q, hq, hG⟩ := ih ev hev
        exact ⟨q, hstep.request hq, hG⟩
      intro ev hev
      have hstep' := hstep
      cases hstep with
      | accept => exact old ev hev
      | tick => exact old ev hev
      | @call i q c k ch r s' hth hexec hok =>
          simp only [Hist.push_log, List.mem_append, List.mem_singleton] at hev
          rcases hev with hev | rfl
          · exact old ev hev
          · refine ⟨q, hstep'.request (Config.request_of_thread hth), ?_⟩
            exact hcall hmid.inv (hmid.guard O.lawful.toKeeps hth) hexec hok

/-- A run whose every call is one that `ok'` admits is a run under `ok'`. -/
theorem Reachable.within {ok' : Hist C R σ → Event C R → Prop} {s₀ : σ}
    (hcall : ∀ {cfg : Config ρ C R ε ω σ} {i q c k ch r s'}, Reachable sem ok handler s₀ cfg →
      cfg.threads[i]? = some ⟨q, .call c k⟩ → sem.exec i c ch cfg.hist.state = some (r, s') →
        ok cfg.hist ⟨i, c, r⟩ → ok' cfg.hist ⟨i, c, r⟩)
    {cfg : Config ρ C R ε ω σ} (h : Reachable sem ok handler s₀ cfg) :
    Reachable sem ok' handler s₀ cfg := by
  induction h with
  | refl => exact .refl
  | tail hpre hstep ih =>
      refine .tail ih ?_
      cases hstep with
      | accept q => exact .accept q
      | call hth hexec hok => exact .call hth hexec (hcall hpre hth hexec hok)
      | tick htick => exact .tick htick

/-- A program that runs alone ends in its postcondition. -/
theorem Runs.sound (law : K.Keeps sem ok) {i : Nat} {q : ρ} {p : Prog C R ε α}
    {Q : Hist C R σ → Except ε α → Prop}
    (hQ : ∀ {h h' r}, K.rely i h h' → K.inv h' → Q h r → Q h' r) {h h' : Hist C R σ}
    {res : Except ε α} (hinv : K.inv h) (hp : K.wp sem ok i q p Q h)
    (hruns : Runs sem ok i p h res h') : Q h' res ∧ K.inv h' := by
  induction hruns with
  | ret => exact ⟨hp, hinv⟩
  | fail => exact ⟨hp, hinv⟩
  | call hexec hok _ ih =>
      obtain ⟨hguard, hrest⟩ := hp _ (law.refl i _) hinv
      have hinv' := law.call hinv hguard hexec hok
      exact ih hinv' (hrest _ _ _ hexec hok hinv')
  | tick htick _ ih =>
      have hinv' := law.tick hinv htick
      exact ih hinv' (Contract.wp_stable law hQ (law.ticks hinv htick) hinv' hp)

/-- Requests served one at a time stay within the outline: whoever moves, the
others have ended, and how they ended does not depend on the history. -/
theorem Serially.sound {post : Nat → ρ → Except ε ω → Prop} (law : K.Keeps sem ok)
    (haccept : ∀ {i q h}, K.inv h → (∀ ev ∈ h.log, ev.thread < i) →
      K.wp sem ok i q (handler q) (fun _ => post i q) h)
    {s₀ : σ} (hinit : K.inv { state := s₀, log := [] }) {cfg : Config ρ C R ε ω σ}
    (h : Serially sem ok handler s₀ cfg) : Outlined K sem ok (fun i q _ => post i q) cfg := by
  induction h with
  | refl => exact .initial hinit
  | tail hpre hstep ih =>
      have hserial := Serially.serial hpre
      cases hstep.1 with
      | accept q => exact ih.accept fun _ => haccept ih.inv
      | call hth hexec hok =>
          refine ih.call law hth hexec hok ?_
          intro j th hne hj _ _
          obtain ⟨res, hres⟩ := hserial.others hth hj hne
          have hend := ih.thread hj
          rw [hres, Contract.wp_ofExcept] at hend ⊢
          exact hend
      | tick htick =>
          refine ih.tick law ?_ htick
          exact fun _ _ hp => hp

end Sound

/-! From here on preconditions are only taken apart by their lemmas: unfolding
one would run the program. -/

attribute [irreducible] Contract.wp

end Conc
