import Mathlib.Logic.Relation
import Mathlib.Data.List.Basic

/-!
# Handlers as programs over atomic calls

An asynchronous handler is a tree of *calls*: what it asks of the outside
world (a statement of the store, a reading of the clock, an answer of a third
party), and for each reply how it goes on. `Prog C R ε α` is such a tree over
the calls `C` with replies `R`, ending in a value `α` or an error `ε`; it is a
monad, so a handler is written in `do` notation.

`Semantics` says what one call does to the shared state. Its nondeterminism
is explicit (`Choice`), so a run can be replayed. Two ways of running programs
are defined over it:

* `Runs`, one program from start to end with nothing in between but ticks of
  the environment;
* `Step`/`Reachable`, a pool of threads that take single calls in any order,
  with new requests accepted and ticks of the environment at any moment. The
  `ok` predicate restricts the steps a run may take; every step is recorded
  in the log. `Serially` are the runs that serve one request at a time.
-/

namespace Conc

universe u

/-- A handler: a tree of calls that ends in a value or in an error. -/
inductive Prog (C : Type) (R : C → Type) (ε α : Type) : Type where
  | ret (a : α)
  | fail (e : ε)
  | call (c : C) (k : R c → Prog C R ε α)

namespace Prog

variable {C : Type} {R : C → Type} {ε ε' α β : Type}

/-- Sequential composition; an error skips the rest. -/
def bind : Prog C R ε α → (α → Prog C R ε β) → Prog C R ε β
  | .ret a, f => f a
  | .fail e, _ => .fail e
  | .call c k, f => .call c fun r => (k r).bind f

instance : Monad (Prog C R ε) where
  pure := .ret
  bind := bind

@[simp] theorem bind_eq (p : Prog C R ε α) (f : α → Prog C R ε β) : p >>= f = p.bind f := rfl

@[simp] theorem pure_eq (a : α) : (pure a : Prog C R ε α) = .ret a := rfl

@[simp] theorem ret_bind (a : α) (f : α → Prog C R ε β) : (ret a : Prog C R ε α).bind f = f a :=
  rfl

@[simp] theorem fail_bind (e : ε) (f : α → Prog C R ε β) :
    (fail e : Prog C R ε α).bind f = .fail e := rfl

@[simp] theorem call_bind (c : C) (k : R c → Prog C R ε α) (f : α → Prog C R ε β) :
    (call c k).bind f = .call c fun r => (k r).bind f := rfl

/-- One call, returning its reply. -/
def perform (c : C) : Prog C R ε (R c) := .call c .ret

/-- A result that is already there. -/
def ofExcept : Except ε α → Prog C R ε α
  | .ok a => .ret a
  | .error e => .fail e

/-- An early return of `e` unless `c`. -/
def require (c : Prop) [Decidable c] (e : ε) : Prog C R ε Unit := if c then .ret () else .fail e

/-- Run `p` to its end and look at how it ended. -/
def attempt : Prog C R ε α → Prog C R ε' (Except ε α)
  | .ret a => .ret (.ok a)
  | .fail e => .ret (.error e)
  | .call c k => .call c fun r => (k r).attempt

/-- Rewrite the error of `p`. -/
def mapError (f : ε → ε') : Prog C R ε α → Prog C R ε' α
  | .ret a => .ret a
  | .fail e => .fail (f e)
  | .call c k => .call c fun r => (k r).mapError f

/-- How a finished program ended. -/
def result : Prog C R ε α → Option (Except ε α)
  | .ret a => some (.ok a)
  | .fail e => some (.error e)
  | .call _ _ => none

theorem eq_of_result {p : Prog C R ε α} {res : Except ε α} (h : p.result = some res) :
    p = ofExcept res := by
  cases p with
  | ret b =>
      cases h
      rfl
  | fail e =>
      cases h
      rfl
  | call c k => cases h

/-- The footprint of a program: whatever the replies, it only makes calls in
`P`. -/
def Calls (P : C → Prop) : Prog C R ε α → Prop
  | .ret _ => True
  | .fail _ => True
  | .call c k => P c ∧ ∀ r, (k r).Calls P

section Calls

variable {P P' : C → Prop}

@[simp] theorem calls_ret (a : α) : (ret a : Prog C R ε α).Calls P := trivial

@[simp] theorem calls_fail (e : ε) : (fail e : Prog C R ε α).Calls P := trivial

@[simp] theorem calls_call {c : C} {k : R c → Prog C R ε α} :
    (call c k).Calls P ↔ P c ∧ ∀ r, (k r).Calls P := Iff.rfl

@[simp] theorem calls_perform {c : C} : (perform c : Prog C R ε (R c)).Calls P ↔ P c :=
  ⟨And.left, fun h => ⟨h, fun _ => trivial⟩⟩

theorem calls_bind {p : Prog C R ε α} {f : α → Prog C R ε β} (hp : p.Calls P)
    (hf : ∀ a, (f a).Calls P) : (p.bind f).Calls P := by
  induction p with
  | ret a => exact hf a
  | fail e => trivial
  | call c k ih => exact ⟨hp.1, fun r => ih r (hp.2 r)⟩

@[simp] theorem calls_ofExcept {x : Except ε α} : (ofExcept x : Prog C R ε α).Calls P := by
  cases x <;> trivial

@[simp] theorem calls_require {c : Prop} [Decidable c] {e : ε} :
    (require c e : Prog C R ε Unit).Calls P := by
  unfold require
  split <;> trivial

/-- What follows a result may rely on it. -/
theorem calls_ofExcept_bind {x : Except ε α} {f : α → Prog C R ε β}
    (hf : ∀ a, x = .ok a → (f a).Calls P) : ((ofExcept x : Prog C R ε α).bind f).Calls P := by
  cases x with
  | ok a => exact hf a rfl
  | error e => trivial

@[simp] theorem calls_attempt {p : Prog C R ε α} :
    (p.attempt : Prog C R ε' (Except ε α)).Calls P ↔ p.Calls P := by
  induction p with
  | ret a => exact Iff.rfl
  | fail e => exact Iff.rfl
  | call c k ih => simp only [attempt, calls_call, ih]

@[simp] theorem calls_mapError {p : Prog C R ε α} {f : ε → ε'} :
    (p.mapError f).Calls P ↔ p.Calls P := by
  induction p with
  | ret a => exact Iff.rfl
  | fail e => exact Iff.rfl
  | call c k ih => simp only [mapError, calls_call, ih]

theorem Calls.mono {p : Prog C R ε α} (hp : p.Calls P) (h : ∀ c, P c → P' c) : p.Calls P' := by
  induction p with
  | ret a => trivial
  | fail e => trivial
  | call c k ih => exact ⟨h c hp.1, fun r => ih r (hp.2 r)⟩

end Calls

/-- Whatever the replies, the value the program ends in, if it does, is in
`V`. -/
def Returns (V : α → Prop) : Prog C R ε α → Prop
  | .ret a => V a
  | .fail _ => True
  | .call _ k => ∀ r, (k r).Returns V

section Returns

variable {V : α → Prop} {W : β → Prop}

theorem returns_ret {a : α} : (ret a : Prog C R ε α).Returns V ↔ V a := Iff.rfl

theorem returns_call {c : C} {k : R c → Prog C R ε α} :
    (call c k).Returns V ↔ ∀ r, (k r).Returns V := Iff.rfl

theorem returns_true (p : Prog C R ε α) : p.Returns fun _ => True := by
  induction p with
  | ret a => trivial
  | fail e => trivial
  | call c k ih => exact ih

theorem returns_bind {p : Prog C R ε α} {f : α → Prog C R ε β} (hp : p.Returns V)
    (hf : ∀ a, V a → (f a).Returns W) : (p.bind f).Returns W := by
  induction p with
  | ret a => exact hf a hp
  | fail e => trivial
  | call c k ih => exact fun r => ih r (hp r)

end Returns

/-! From here on footprints are only taken apart by their lemmas: unfolding one
would run the program. -/

attribute [irreducible] Calls Returns

end Prog

/-- What one call does to the shared state. `exec i c ch s` is the reply to the
call `c` of thread `i` and the state after it, under the choice `ch`; it is
`none` where that choice is impossible. -/
structure Semantics (C : Type) (R : C → Type) (σ : Type) where
  Choice : C → Type
  exec : Nat → (c : C) → Choice c → σ → Option (R c × σ)
  Tick : Type
  tick : Tick → σ → Option σ

/-- One call a thread has made, and the reply. -/
structure Event (C : Type) (R : C → Type) where
  thread : Nat
  call : C
  reply : R call

/-- The shared state together with every call made so far. -/
structure Hist (C : Type) (R : C → Type) (σ : Type) where
  state : σ
  log : List (Event C R)

namespace Hist

variable {C : Type} {R : C → Type} {σ : Type}

/-- The history after one more call. -/
def push (h : Hist C R σ) (ev : Event C R) (s : σ) : Hist C R σ :=
  { state := s, log := h.log ++ [ev] }

@[simp] theorem push_state (h : Hist C R σ) (ev : Event C R) (s : σ) : (h.push ev s).state = s :=
  rfl

@[simp] theorem push_log (h : Hist C R σ) (ev : Event C R) (s : σ) :
    (h.push ev s).log = h.log ++ [ev] := rfl

/-- The calls thread `i` has made. -/
def callsOf (h : Hist C R σ) (i : Nat) : List (Event C R) := h.log.filter fun ev => ev.thread = i

theorem callsOf_push_self {h : Hist C R σ} {i : Nat} {c : C} {r : R c} {s : σ} :
    (h.push ⟨i, c, r⟩ s).callsOf i = h.callsOf i ++ [⟨i, c, r⟩] := by
  simp [callsOf]

theorem callsOf_push_ne {h : Hist C R σ} {i j : Nat} {c : C} {r : R c} {s : σ} (hne : j ≠ i) :
    (h.push ⟨i, c, r⟩ s).callsOf j = h.callsOf j := by
  simp [callsOf, hne.symm]

/-- A call of a thread in the log, with the calls of the thread since. -/
theorem split_of_calls {h : Hist C R σ} {i : Nat} {ev : Event C R}
    {earlier later : List (Event C R)}
    (hcalls : h.callsOf i = earlier ++ ev :: later) :
    ∃ before since, h.log = before ++ ev :: since ∧
      ∀ ev' ∈ since, ev'.thread = i → ev' ∈ later := by
  obtain ⟨before, rest, hlog, _, hrest⟩ := List.filter_eq_append_iff.mp hcalls
  obtain ⟨skipped, since, rfl, _, _, hsince⟩ := List.filter_eq_cons_iff.mp hrest
  refine ⟨before ++ skipped, since, by rw [hlog, List.append_assoc], fun ev' hev' hthread => ?_⟩
  rw [← hsince]
  exact List.mem_filter.mpr ⟨hev', decide_eq_true hthread⟩

/-- The last call of a thread, and what the others did since. -/
theorem split_of_last {h : Hist C R σ} {i : Nat} {ev : Event C R}
    (hlast : (h.callsOf i).getLast? = some ev) :
    ∃ before since, h.log = before ++ ev :: since ∧ ∀ ev' ∈ since, ev'.thread ≠ i := by
  obtain ⟨earlier, hcalls⟩ := List.getLast?_eq_some_iff.mp hlast
  obtain ⟨before, since, hlog, hsince⟩ := split_of_calls hcalls
  exact ⟨before, since, hlog, fun ev' hev' hthread =>
    absurd (hsince ev' hev' hthread) List.not_mem_nil⟩

theorem mem_callsOf {h : Hist C R σ} {i : Nat} {ev : Event C R} :
    ev ∈ h.callsOf i ↔ ev ∈ h.log ∧ ev.thread = i := by
  simp [callsOf]

end Hist

/-- A request being served. -/
structure Thread (ρ C : Type) (R : C → Type) (ε ω : Type) where
  request : ρ
  prog : Prog C R ε ω

/-- The shared state, the requests accepted so far and the calls made so far. -/
structure Config (ρ C : Type) (R : C → Type) (ε ω σ : Type) where
  hist : Hist C R σ
  threads : List (Thread ρ C R ε ω)

namespace Config

variable {ρ C : Type} {R : C → Type} {ε ω σ : Type}

/-- The request thread `i` serves. -/
def request (cfg : Config ρ C R ε ω σ) (i : Nat) : Option ρ := cfg.threads[i]?.map Thread.request

/-- How thread `i` ended, if it did. -/
def outcome (cfg : Config ρ C R ε ω σ) (i : Nat) : Option (Except ε ω) :=
  cfg.threads[i]?.bind fun th => th.prog.result

theorem request_of_thread {cfg : Config ρ C R ε ω σ} {i : Nat} {th : Thread ρ C R ε ω}
    (h : cfg.threads[i]? = some th) : cfg.request i = some th.request := by
  rw [request, h, Option.map_some]

/-- A finished thread. -/
theorem thread_of_outcome {cfg : Config ρ C R ε ω σ} {i : Nat} {res : Except ε ω}
    (h : cfg.outcome i = some res) :
    ∃ q, cfg.request i = some q ∧ cfg.threads[i]? = some ⟨q, .ofExcept res⟩ := by
  obtain ⟨⟨q, p⟩, hth, hres⟩ := Option.bind_eq_some_iff.mp h
  have hp : p = .ofExcept res := Prog.eq_of_result hres
  subst hp
  exact ⟨q, request_of_thread hth, hth⟩

end Config

section Runs

variable {ρ C : Type} {R : C → Type} {ε ω α σ : Type}

/-- `p` runs from `h` to its end at `h'` as thread `i`; nobody else moves, but
the environment may tick. -/
inductive Runs (sem : Semantics C R σ) (ok : Hist C R σ → Event C R → Prop) (i : Nat) :
    Prog C R ε α → Hist C R σ → Except ε α → Hist C R σ → Prop
  | ret {a h} : Runs sem ok i (.ret a) h (.ok a) h
  | fail {e h} : Runs sem ok i (.fail e) h (.error e) h
  | call {c k h ch r s' res h'} : sem.exec i c ch h.state = some (r, s') → ok h ⟨i, c, r⟩ →
      Runs sem ok i (k r) (h.push ⟨i, c, r⟩ s') res h' → Runs sem ok i (.call c k) h res h'
  | tick {p h t s' res h'} : sem.tick t h.state = some s' →
      Runs sem ok i p { h with state := s' } res h' → Runs sem ok i p h res h'

/-- A program that has ended stays ended. -/
theorem Runs.result {sem : Semantics C R σ} {ok : Hist C R σ → Event C R → Prop} {i : Nat}
    {p : Prog C R ε α} {h h' : Hist C R σ} {res x : Except ε α} (hruns : Runs sem ok i p h res h')
    (hp : p.result = some x) : res = x := by
  induction hruns with
  | ret => exact Option.some.inj hp
  | fail => exact Option.some.inj hp
  | call => cases hp
  | tick _ _ ih => exact ih hp

/-- One step of the pool: a request is accepted, a thread makes a call that
`ok` admits, or the environment ticks. -/
inductive Step (sem : Semantics C R σ) (ok : Hist C R σ → Event C R → Prop)
    (handler : ρ → Prog C R ε ω) : Config ρ C R ε ω σ → Config ρ C R ε ω σ → Prop
  | accept {cfg} (q : ρ) :
      Step sem ok handler cfg { cfg with threads := cfg.threads ++ [⟨q, handler q⟩] }
  | call {cfg} {i : Nat} {q : ρ} {c : C} {k : R c → Prog C R ε ω} {ch : sem.Choice c} {r : R c}
      {s' : σ} : cfg.threads[i]? = some ⟨q, .call c k⟩ →
      sem.exec i c ch cfg.hist.state = some (r, s') → ok cfg.hist ⟨i, c, r⟩ →
      Step sem ok handler cfg
        { hist := cfg.hist.push ⟨i, c, r⟩ s', threads := cfg.threads.set i ⟨q, k r⟩ }
  | tick {cfg} {t : sem.Tick} {s' : σ} : sem.tick t cfg.hist.state = some s' →
      Step sem ok handler cfg { cfg with hist := { cfg.hist with state := s' } }

/-- Any number of steps. -/
abbrev Steps (sem : Semantics C R σ) (ok : Hist C R σ → Event C R → Prop)
    (handler : ρ → Prog C R ε ω) : Config ρ C R ε ω σ → Config ρ C R ε ω σ → Prop :=
  Relation.ReflTransGen (Step sem ok handler)

/-- No request accepted yet, no call made yet. -/
def Config.initial (s : σ) : Config ρ C R ε ω σ :=
  { hist := { state := s, log := [] }, threads := [] }

/-- The configurations reached from the state `s₀` by steps that `ok` admits. -/
def Reachable (sem : Semantics C R σ) (ok : Hist C R σ → Event C R → Prop)
    (handler : ρ → Prog C R ε ω) (s₀ : σ) (cfg : Config ρ C R ε ω σ) : Prop :=
  Steps sem ok handler (.initial s₀) cfg

/-- All requests but the last accepted have ended. -/
def Config.Serial (cfg : Config ρ C R ε ω σ) : Prop :=
  ∀ i < cfg.threads.length - 1, (cfg.outcome i).isSome

instance (cfg : Config ρ C R ε ω σ) : Decidable cfg.Serial :=
  inferInstanceAs (Decidable (∀ i < cfg.threads.length - 1, (cfg.outcome i).isSome))

/-- The configurations reached by serving one request at a time. -/
def Serially (sem : Semantics C R σ) (ok : Hist C R σ → Event C R → Prop)
    (handler : ρ → Prog C R ε ω) (s₀ : σ) (cfg : Config ρ C R ε ω σ) : Prop :=
  Relation.ReflTransGen (fun a b => Step sem ok handler a b ∧ b.Serial) (.initial s₀) cfg

/-- A serial run is a run. -/
theorem Serially.reachable {sem : Semantics C R σ} {ok : Hist C R σ → Event C R → Prop}
    {handler : ρ → Prog C R ε ω} {s₀ : σ} {cfg : Config ρ C R ε ω σ}
    (h : Serially sem ok handler s₀ cfg) : Reachable sem ok handler s₀ cfg :=
  Relation.ReflTransGen.mono (fun _ _ => And.left) _ _ h

theorem Serially.serial {sem : Semantics C R σ} {ok : Hist C R σ → Event C R → Prop}
    {handler : ρ → Prog C R ε ω} {s₀ : σ} {cfg : Config ρ C R ε ω σ}
    (h : Serially sem ok handler s₀ cfg) : cfg.Serial := by
  cases h with
  | refl => exact fun i hi => absurd hi (Nat.not_lt_zero i)
  | tail _ hstep => exact hstep.2

/-- While one thread moves, the others have ended. -/
theorem Config.Serial.others {cfg : Config ρ C R ε ω σ} (h : cfg.Serial) {i j : Nat} {q : ρ} {c : C}
    {k : R c → Prog C R ε ω} {th : Thread ρ C R ε ω} (hi : cfg.threads[i]? = some ⟨q, .call c k⟩)
    (hj : cfg.threads[j]? = some th) (hne : i ≠ j) : ∃ res, th.prog = .ofExcept res := by
  have hlt : ∀ {n th}, cfg.threads[n]? = some th → n < cfg.threads.length :=
    fun h => (List.getElem?_eq_some_iff.mp h).1
  -- the moving thread has not ended, so it is the last one
  have hlast : ¬ i < cfg.threads.length - 1 := by
    intro hlt
    have hdone := h i hlt
    rw [outcome, hi] at hdone
    exact Bool.noConfusion hdone
  have hdone := h j (by have := hlt hi; have := hlt hj; omega)
  rw [outcome, hj] at hdone
  obtain ⟨res, hres⟩ := Option.isSome_iff_exists.mp hdone
  exact ⟨res, Prog.eq_of_result hres⟩

/-- A thread keeps its request. -/
theorem Step.request {sem : Semantics C R σ} {ok : Hist C R σ → Event C R → Prop}
    {handler : ρ → Prog C R ε ω} {cfg cfg' : Config ρ C R ε ω σ}
    (hstep : Step sem ok handler cfg cfg') {i : Nat} {q : ρ} (hq : cfg.request i = some q) :
    cfg'.request i = some q := by
  obtain ⟨th, hth, rfl⟩ := Option.map_eq_some_iff.mp hq
  have hi : i < cfg.threads.length := (List.getElem?_eq_some_iff.mp hth).1
  cases hstep with
  | accept q' =>
      rw [Config.request, List.getElem?_append_left hi, hth, Option.map_some]
  | @call j q' c k ch r s' hj hexec hok =>
      by_cases hij : j = i
      · subst hij
        rw [hth] at hj
        cases hj
        rw [Config.request, List.getElem?_set_self hi, Option.map_some]
      · rw [Config.request, List.getElem?_set_ne hij, hth, Option.map_some]
  | tick htick => exact hq

theorem Steps.request {sem : Semantics C R σ} {ok : Hist C R σ → Event C R → Prop}
    {handler : ρ → Prog C R ε ω} {cfg cfg' : Config ρ C R ε ω σ}
    (h : Steps sem ok handler cfg cfg') {i : Nat} {q : ρ} (hq : cfg.request i = some q) :
    cfg'.request i = some q := by
  induction h with
  | refl => exact hq
  | tail _ hstep ih => exact hstep.request ih

/-- Steps only add to the log. -/
theorem Steps.log_prefix {sem : Semantics C R σ} {ok : Hist C R σ → Event C R → Prop}
    {handler : ρ → Prog C R ε ω} {cfg cfg' : Config ρ C R ε ω σ}
    (h : Steps sem ok handler cfg cfg') : cfg.hist.log <+: cfg'.hist.log := by
  induction h with
  | refl => exact List.prefix_rfl
  | tail _ hstep ih =>
      cases hstep with
      | accept => exact ih
      | call => exact ih.trans (List.prefix_append _ _)
      | tick => exact ih

/-- On the way to `cfg` the call `ev` was made in the step from `mid` to
`mid'`. -/
structure Took (sem : Semantics C R σ) (ok : Hist C R σ → Event C R → Prop)
    (handler : ρ → Prog C R ε ω) (s₀ : σ) (cfg : Config ρ C R ε ω σ) (ev : Event C R)
    (mid mid' : Config ρ C R ε ω σ) : Prop where
  before : Reachable sem ok handler s₀ mid
  step : Step sem ok handler mid mid'
  after : Steps sem ok handler mid' cfg
  log : mid'.hist.log = mid.hist.log ++ [ev]

/-- Every call in the log was made in some step, after the calls before it. -/
theorem Reachable.took_at {sem : Semantics C R σ} {ok : Hist C R σ → Event C R → Prop}
    {handler : ρ → Prog C R ε ω} {s₀ : σ} {cfg : Config ρ C R ε ω σ}
    (h : Reachable sem ok handler s₀ cfg) {before since : List (Event C R)} {ev : Event C R}
    (hlog : cfg.hist.log = before ++ ev :: since) :
    ∃ mid mid', Took sem ok handler s₀ cfg ev mid mid' ∧ mid.hist.log = before := by
  induction h generalizing since with
  | refl => exact absurd hlog (by simp [Config.initial])
  | @tail mid cfg hpre hstep ih =>
      have old : ∀ {since}, mid.hist.log = before ++ ev :: since →
          ∃ mid mid', Took sem ok handler s₀ cfg ev mid mid' ∧ mid.hist.log = before := by
        intro since hmid
        obtain ⟨a, b, took, hbefore⟩ := ih hmid
        exact ⟨a, b, ⟨took.before, took.step, took.after.tail hstep, took.log⟩, hbefore⟩
      have hstep' := hstep
      cases hstep with
      | accept => exact old hlog
      | tick => exact old hlog
      | @call i q c k ch r s' hth hexec hok =>
          have hlog : mid.hist.log ++ [⟨i, c, r⟩] = before ++ ev :: since := hlog
          rcases List.eq_nil_or_concat since with rfl | ⟨rest, last, rfl⟩
          · obtain ⟨hbefore, hev⟩ := List.append_inj' hlog rfl
            obtain rfl := (List.cons.inj hev).1
            exact ⟨mid, _, ⟨hpre, hstep', .refl, rfl⟩, hbefore⟩
          · refine @old rest ?_
            rw [List.concat_eq_append, ← List.cons_append, ← List.append_assoc] at hlog
            exact (List.append_inj' hlog rfl).1

theorem Reachable.took {sem : Semantics C R σ} {ok : Hist C R σ → Event C R → Prop}
    {handler : ρ → Prog C R ε ω} {s₀ : σ} {cfg : Config ρ C R ε ω σ}
    (h : Reachable sem ok handler s₀ cfg) {ev : Event C R} (hev : ev ∈ cfg.hist.log) :
    ∃ mid mid', Took sem ok handler s₀ cfg ev mid mid' := by
  obtain ⟨before, since, hlog⟩ := List.append_of_mem hev
  obtain ⟨mid, mid', took, _⟩ := h.took_at hlog
  exact ⟨mid, mid', took⟩

/-- The thread and the choice behind a call. -/
theorem Took.call {sem : Semantics C R σ} {ok : Hist C R σ → Event C R → Prop}
    {handler : ρ → Prog C R ε ω} {s₀ : σ} {cfg mid mid' : Config ρ C R ε ω σ} {i : Nat} {c : C}
    {r : R c} (took : Took sem ok handler s₀ cfg ⟨i, c, r⟩ mid mid') :
    ∃ q k ch, mid.threads[i]? = some ⟨q, .call c k⟩ ∧
      sem.exec i c ch mid.hist.state = some (r, mid'.hist.state) ∧ ok mid.hist ⟨i, c, r⟩ := by
  have hlog := took.log
  have same : mid'.hist.log ≠ mid.hist.log := by
    intro hsame
    rw [hsame] at hlog
    have hlen := congrArg List.length hlog
    simp at hlen
  cases took.step with
  | accept => exact absurd rfl same
  | tick => exact absurd rfl same
  | call hth hexec hok =>
      obtain ⟨rfl, hcall⟩ := Event.mk.inj (List.cons.inj (List.append_cancel_left hlog)).1
      obtain ⟨rfl, hr⟩ := hcall
      obtain rfl := eq_of_heq hr
      exact ⟨_, _, _, hth, hexec, hok⟩

/-- What is left of a handler stays within its footprint. -/
theorem Reachable.calls {sem : Semantics C R σ} {ok : Hist C R σ → Event C R → Prop}
    {handler : ρ → Prog C R ε ω} {s₀ : σ} {cfg : Config ρ C R ε ω σ} {Q : ρ → Prop} {P : C → Prop}
    (hcalls : ∀ q, Q q → (handler q).Calls P) (h : Reachable sem ok handler s₀ cfg) :
    ∀ (i : Nat) (q : ρ) (p : Prog C R ε ω), cfg.threads[i]? = some ⟨q, p⟩ → Q q → p.Calls P := by
  induction h with
  | refl => exact fun i q p hth => nomatch hth
  | @tail mid cfg _ hstep ih =>
      intro i q p hth hq
      cases hstep with
      | accept q' =>
          have hth : (mid.threads ++ [⟨q', handler q'⟩])[i]? = some ⟨q, p⟩ := hth
          rw [List.getElem?_append] at hth
          split at hth
          · exact ih i q p hth hq
          · obtain ⟨rfl, rfl⟩ := Thread.mk.inj (List.mem_singleton.mp (List.mem_of_getElem? hth))
            exact hcalls q hq
      | @call j q' c k ch r s' hj =>
          by_cases hij : j = i
          · subst hij
            have hth : (mid.threads.set j ⟨q', k r⟩)[j]? = some ⟨q, p⟩ := hth
            rw [List.getElem?_set_self (List.getElem?_eq_some_iff.mp hj).1] at hth
            obtain ⟨rfl, rfl⟩ := Thread.mk.inj (Option.some.inj hth)
            exact (Prog.calls_call.mp (ih j q' _ hj hq)).2 r
          · have hth : (mid.threads.set j ⟨q', k r⟩)[i]? = some ⟨q, p⟩ := hth
            rw [List.getElem?_set_ne hij] at hth
            exact ih i q p hth hq
      | tick => exact ih i q p hth hq

/-- A step under a stricter `ok` is a step. -/
theorem Step.mono {sem : Semantics C R σ} {ok ok' : Hist C R σ → Event C R → Prop}
    {handler : ρ → Prog C R ε ω} {cfg cfg' : Config ρ C R ε ω σ} (himp : ∀ h ev, ok h ev → ok' h ev)
    (hstep : Step sem ok handler cfg cfg') : Step sem ok' handler cfg cfg' := by
  cases hstep with
  | accept q => exact .accept q
  | call hth hexec hok => exact .call hth hexec (himp _ _ hok)
  | tick htick => exact .tick htick

theorem Steps.mono {sem : Semantics C R σ} {ok ok' : Hist C R σ → Event C R → Prop}
    {handler : ρ → Prog C R ε ω} {cfg cfg' : Config ρ C R ε ω σ} (himp : ∀ h ev, ok h ev → ok' h ev)
    (hsteps : Steps sem ok handler cfg cfg') : Steps sem ok' handler cfg cfg' :=
  Relation.ReflTransGen.mono (fun _ _ => Step.mono himp) _ _ hsteps

/-- Every step is admitted. -/
def always : Hist C R σ → Event C R → Prop := fun _ _ => True

end Runs

/-! ## Replaying a run

A schedule names, step by step, which thread moves and how the choices of its
call are settled. Replaying it is a computation, and what it computes is a
run. A step that `ok` does not admit ends the replay, so a replay under `ok`
is a run under `ok`. -/

section Replay

variable {ρ C : Type} {R : C → Type} {ε ω σ : Type}

instance (h : Hist C R σ) (ev : Event C R) : Decidable (always h ev) := .isTrue trivial

/-- One entry of a schedule. -/
inductive Move (ρ : Type) {C : Type} {R : C → Type} {σ : Type} (sem : Semantics C R σ) where
  | accept (q : ρ)
  | call (i : Nat) (pick : (c : C) → sem.Choice c)
  | tick (t : sem.Tick)

section

variable (sem : Semantics C R σ) (ok : Hist C R σ → Event C R → Prop) [∀ h ev, Decidable (ok h ev)]
  (handler : ρ → Prog C R ε ω)

/-- The configuration after one entry; `none` if the entry is impossible. -/
def Move.apply : Move ρ sem → Config ρ C R ε ω σ → Option (Config ρ C R ε ω σ)
  | .accept q, cfg => some { cfg with threads := cfg.threads ++ [⟨q, handler q⟩] }
  | .call i pick, cfg =>
      match cfg.threads[i]? with
      | some ⟨q, .call c k⟩ =>
          (sem.exec i c (pick c) cfg.hist.state).bind fun out =>
            if ok cfg.hist ⟨i, c, out.1⟩ then
              some
                { hist := cfg.hist.push ⟨i, c, out.1⟩ out.2
                  threads := cfg.threads.set i ⟨q, k out.1⟩ }
            else none
      | _ => none
  | .tick t, cfg =>
      (sem.tick t cfg.hist.state).map fun s' => { cfg with hist := { cfg.hist with state := s' } }

/-- The configuration after a schedule. -/
def replay : List (Move ρ sem) → Config ρ C R ε ω σ → Option (Config ρ C R ε ω σ)
  | [], cfg => some cfg
  | m :: ms, cfg => (m.apply sem ok handler cfg).bind (replay ms)

end

variable {sem : Semantics C R σ} {ok : Hist C R σ → Event C R → Prop} [∀ h ev, Decidable (ok h ev)]
  {handler : ρ → Prog C R ε ω}

theorem Move.apply_step {m : Move ρ sem} {cfg cfg' : Config ρ C R ε ω σ}
    (h : m.apply sem ok handler cfg = some cfg') : Step sem ok handler cfg cfg' := by
  cases m with
  | accept q =>
      simp only [apply, Option.some.injEq] at h
      exact h ▸ .accept q
  | call i pick =>
      simp only [apply] at h
      split at h
      · rename_i q c k hth
        obtain ⟨⟨r, s'⟩, hexec, hadmit⟩ := Option.bind_eq_some_iff.mp h
        by_cases hok : ok cfg.hist ⟨i, c, r⟩
        · rw [if_pos hok] at hadmit
          cases hadmit
          exact .call hth hexec hok
        · rw [if_neg hok] at hadmit
          cases hadmit
      · cases h
  | tick t =>
      simp only [apply] at h
      obtain ⟨s', hs, rfl⟩ := Option.map_eq_some_iff.mp h
      exact .tick hs

/-- What a schedule computes is a run. -/
theorem replay_steps {ms : List (Move ρ sem)} {cfg cfg' : Config ρ C R ε ω σ}
    (h : replay sem ok handler ms cfg = some cfg') : Steps sem ok handler cfg cfg' := by
  induction ms generalizing cfg with
  | nil =>
      simp only [replay, Option.some.injEq] at h
      exact h ▸ .refl
  | cons m ms ih =>
      simp only [replay] at h
      obtain ⟨mid, hm, hrest⟩ := Option.bind_eq_some_iff.mp h
      exact .head (Move.apply_step hm) (ih hrest)

theorem replay_append {ms ms' : List (Move ρ sem)} {cfg : Config ρ C R ε ω σ} :
    replay sem ok handler (ms ++ ms') cfg =
      (replay sem ok handler ms cfg).bind (replay sem ok handler ms') := by
  induction ms generalizing cfg with
  | nil => rfl
  | cons m ms ih =>
      simp only [List.cons_append, replay, Option.bind_assoc]
      congr 1
      funext mid
      exact ih

section Serial

variable (sem ok handler)

/-- The same one request at a time: `none` if a request is accepted too early. -/
def replaySerially : List (Move ρ sem) → Config ρ C R ε ω σ → Option (Config ρ C R ε ω σ)
  | [], cfg => some cfg
  | m :: ms, cfg => (m.apply sem ok handler cfg).bind fun cfg' =>
      if cfg'.Serial then replaySerially ms cfg' else none

end Serial

/-- What a schedule computes one request at a time is a serial run. -/
theorem serially_of_replay {ms : List (Move ρ sem)} {s₀ : σ} {cfg cfg' : Config ρ C R ε ω σ}
    (hcfg : Serially sem ok handler s₀ cfg)
    (h : replaySerially sem ok handler ms cfg = some cfg') : Serially sem ok handler s₀ cfg' := by
  induction ms generalizing cfg with
  | nil =>
      simp only [replaySerially, Option.some.injEq] at h
      exact h ▸ hcfg
  | cons m ms ih =>
      simp only [replaySerially] at h
      obtain ⟨mid, hm, hrest⟩ := Option.bind_eq_some_iff.mp h
      by_cases hserial : mid.Serial
      · rw [if_pos hserial] at hrest
        exact ih (hcfg.tail ⟨Move.apply_step hm, hserial⟩) hrest
      · rw [if_neg hserial] at hrest
        cases hrest

/-- The requests a schedule accepts, in order. -/
def accepted (ms : List (Move ρ sem)) : List ρ :=
  ms.filterMap fun m => match m with
    | .accept q => some q
    | _ => none

/-- A call does not change which requests the threads serve. -/
theorem requests_set {cfg : Config ρ C R ε ω σ} {i : Nat} {q : ρ} {p p' : Prog C R ε ω}
    (hth : cfg.threads[i]? = some ⟨q, p⟩) :
    (cfg.threads.set i ⟨q, p'⟩).map Thread.request = cfg.threads.map Thread.request := by
  have hq : (cfg.threads.map Thread.request)[i]? = some q := by simp [hth]
  rw [List.map_set, ← (List.getElem?_eq_some_iff.mp hq).2]
  exact List.set_getElem_self _

theorem replay_requests {ms : List (Move ρ sem)} {cfg cfg' : Config ρ C R ε ω σ}
    (h : replay sem ok handler ms cfg = some cfg') :
    cfg'.threads.map Thread.request = cfg.threads.map Thread.request ++ accepted ms := by
  induction ms generalizing cfg with
  | nil =>
      cases h
      exact (List.append_nil _).symm
  | cons m ms ih =>
      simp only [replay] at h
      obtain ⟨mid, hm, hrest⟩ := Option.bind_eq_some_iff.mp h
      rw [ih hrest]
      cases m with
      | accept q =>
          cases hm
          simp [accepted]
      | call i pick =>
          simp only [Move.apply] at hm
          split at hm
          · rename_i q c k hth
            obtain ⟨out, _, hadmit⟩ := Option.bind_eq_some_iff.mp hm
            split at hadmit
            · cases hadmit
              simp only [requests_set hth]
              rfl
            · cases hadmit
          · cases hm
      | tick t =>
          simp only [Move.apply] at hm
          obtain ⟨s', _, rfl⟩ := Option.map_eq_some_iff.mp hm
          rfl

/-- From an empty pool, thread `i` serves the `i`-th request accepted. -/
theorem replay_request {ms : List (Move ρ sem)} {s₀ : σ} {cfg : Config ρ C R ε ω σ}
    (h : replay sem ok handler ms (.initial s₀) = some cfg) (i : Nat) :
    cfg.request i = (accepted ms)[i]? := by
  have hmap : cfg.threads.map Thread.request = accepted ms := replay_requests h
  rw [Config.request, ← hmap, List.getElem?_map]

/-- A schedule that leads somewhere with the property `p` is a run that does. -/
theorem reachable_of_replay {ms : List (Move ρ sem)} {s₀ : σ} {p : Config ρ C R ε ω σ → Bool}
    (hrun : (replay sem ok handler ms (.initial s₀)).any p = true) :
    ∃ cfg, Reachable sem ok handler s₀ cfg ∧ (∀ i, cfg.request i = (accepted ms)[i]?) ∧
      p cfg = true := by
  obtain ⟨cfg, hcfg, hp⟩ := (Option.any_eq_true _ _).mp hrun
  exact ⟨cfg, replay_steps hcfg, replay_request hcfg, hp⟩

/-- The same for a schedule and a longer one: a run and its continuation. -/
theorem steps_of_replay {ms more : List (Move ρ sem)} {s₀ : σ} {p p' : Config ρ C R ε ω σ → Bool}
    (hrun : (replay sem ok handler ms (.initial s₀)).any p = true)
    (hmore : (replay sem ok handler (ms ++ more) (.initial s₀)).any p' = true) :
    ∃ cfg cfg', Reachable sem ok handler s₀ cfg ∧ Steps sem ok handler cfg cfg' ∧
      replay sem ok handler more cfg = some cfg' ∧
      (∀ i, cfg'.request i = (accepted (ms ++ more))[i]?) ∧ p cfg = true ∧ p' cfg' = true := by
  obtain ⟨cfg', hcfg', hp'⟩ := (Option.any_eq_true _ _).mp hmore
  have hsplit := hcfg'
  rw [replay_append] at hsplit
  obtain ⟨cfg, hcfg, hlast⟩ := Option.bind_eq_some_iff.mp hsplit
  rw [hcfg] at hrun
  exact ⟨cfg, cfg', replay_steps hcfg, replay_steps hlast, hlast, replay_request hcfg', hrun, hp'⟩

/-- The same where the longer schedule has one more entry: a run and a step. -/
theorem step_of_replay {ms : List (Move ρ sem)} {m : Move ρ sem} {s₀ : σ}
    {p p' : Config ρ C R ε ω σ → Bool}
    (hrun : (replay sem ok handler ms (.initial s₀)).any p = true)
    (hmore : (replay sem ok handler (ms ++ [m]) (.initial s₀)).any p' = true) :
    ∃ cfg cfg', Reachable sem ok handler s₀ cfg ∧ Step sem ok handler cfg cfg' ∧
      (∀ i, cfg'.request i = (accepted (ms ++ [m]))[i]?) ∧ p cfg = true ∧ p' cfg' = true := by
  obtain ⟨cfg, cfg', hreach, _, hlast, hserved, hp, hp'⟩ := steps_of_replay hrun hmore
  obtain ⟨mid, hm, hnil⟩ := Option.bind_eq_some_iff.mp hlast
  simp only [replay, Option.some.injEq] at hnil
  exact ⟨cfg, cfg', hreach, Move.apply_step (by rw [hm, hnil]), hserved, hp, hp'⟩

/-- The same where that entry is a call. -/
theorem took_of_replay {ms : List (Move ρ sem)} {i : Nat} {pick : (c : C) → sem.Choice c} {s₀ : σ}
    {p p' : Config ρ C R ε ω σ → Bool}
    (hrun : (replay sem ok handler ms (.initial s₀)).any p = true)
    (hmore : (replay sem ok handler (ms ++ [.call i pick]) (.initial s₀)).any p' = true) :
    ∃ cfg cfg' ev, Took sem ok handler s₀ cfg' ev cfg cfg' ∧ ev.thread = i ∧
      (∀ j, cfg.request j = (accepted ms)[j]?) ∧ p cfg = true ∧ p' cfg' = true := by
  obtain ⟨cfg', hcfg', hp'⟩ := (Option.any_eq_true _ _).mp hmore
  rw [replay_append] at hcfg'
  obtain ⟨cfg, hcfg, hlast⟩ := Option.bind_eq_some_iff.mp hcfg'
  rw [hcfg] at hrun
  obtain ⟨mid, hm, hnil⟩ := Option.bind_eq_some_iff.mp hlast
  obtain rfl : mid = cfg' := Option.some.inj hnil
  have hstep := Move.apply_step hm
  simp only [Move.apply] at hm
  split at hm
  · rename_i q c k hth
    obtain ⟨out, _, hadmit⟩ := Option.bind_eq_some_iff.mp hm
    split at hadmit
    · obtain rfl := Option.some.inj hadmit
      exact ⟨cfg, _, ⟨i, c, out.1⟩, ⟨replay_steps hcfg, hstep, .refl, rfl⟩, rfl,
        replay_request hcfg, hrun, hp'⟩
    · exact nomatch hadmit
  · exact nomatch hm

end Replay

end Conc
