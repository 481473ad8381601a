import BlinkLnurl.Lib.Prog

/-!
# How a thread came to its result

`p.Ends i calls res`: thread `i` can have run `p` to the result `res`, and `calls`
has every call it made on the way, with the reply to it. `Reachable.ends` says that
each finished thread of a pool has run its handler so within its own calls. What a
result rests on is then read off the program, one step at a time.
-/

namespace Conc

namespace Prog

variable {C : Type} {R : C → Type} {ε ε' α β : Type}

/-- Thread `i` runs to the result, with calls and replies that are in `calls`. -/
def Ends (i : Nat) (calls : List (Event C R)) : Prog C R ε α → Except ε α → Prop
  | .ret a, res => res = .ok a
  | .fail e, res => res = .error e
  | .call c k, res => ∃ r, ⟨i, c, r⟩ ∈ calls ∧ Ends i calls (k r) res

variable {i : Nat} {calls : List (Event C R)}

theorem ends_ret {a : α} {res : Except ε α} :
    (ret a : Prog C R ε α).Ends i calls res ↔ res = .ok a := Iff.rfl

theorem ends_call {c : C} {k : R c → Prog C R ε α} {res : Except ε α} :
    (call c k).Ends i calls res ↔ ∃ r, ⟨i, c, r⟩ ∈ calls ∧ (k r).Ends i calls res := Iff.rfl

theorem ends_ofExcept {x res : Except ε α} :
    (ofExcept x : Prog C R ε α).Ends i calls res ↔ res = x := by
  cases x <;> exact Iff.rfl

theorem ends_perform {c : C} {r : R c} :
    (perform c : Prog C R ε (R c)).Ends i calls (.ok r) ↔ ⟨i, c, r⟩ ∈ calls := by
  constructor
  · rintro ⟨r', hr', hend⟩
    obtain rfl := Except.ok.inj hend
    exact hr'
  · exact fun h => ⟨r, h, rfl⟩

theorem ends_require_ok {c : Prop} [Decidable c] {e : ε} {u : Unit} :
    (require c e : Prog C R ε Unit).Ends i calls (.ok u) ↔ c := by
  unfold require
  by_cases hc : c
  · rw [if_pos hc]
    exact iff_of_true rfl hc
  · rw [if_neg hc]
    exact iff_of_false (fun h => by cases h) hc

/-- A sequence ends well when both of its parts do. -/
theorem ends_bind_ok {p : Prog C R ε α} {f : α → Prog C R ε β} {b : β} :
    (p.bind f).Ends i calls (.ok b) ↔
      ∃ a, p.Ends i calls (.ok a) ∧ (f a).Ends i calls (.ok b) := by
  induction p with
  | ret a =>
      constructor
      · exact fun h => ⟨a, rfl, h⟩
      · rintro ⟨a', ha', h⟩
        obtain rfl := Except.ok.inj ha'
        exact h
  | fail e =>
      constructor
      · exact fun h => by cases h
      · rintro ⟨_, ha, _⟩
        cases ha
  | call c k ih =>
      constructor
      · rintro ⟨r, hr, h⟩
        obtain ⟨a, ha, hb⟩ := (ih r).mp h
        exact ⟨a, ⟨r, hr, ha⟩, hb⟩
      · rintro ⟨a, ⟨r, hr, ha⟩, hb⟩
        exact ⟨r, hr, (ih r).mpr ⟨a, ha, hb⟩⟩

theorem ends_mapError_ok {p : Prog C R ε α} {f : ε → ε'} {a : α} :
    (p.mapError f).Ends i calls (.ok a) ↔ p.Ends i calls (.ok a) := by
  induction p with
  | ret a' => exact ⟨fun h => congrArg Except.ok (Except.ok.inj h),
      fun h => congrArg Except.ok (Except.ok.inj h)⟩
  | fail e => exact ⟨fun h => (by cases h), fun h => (by cases h)⟩
  | call c k ih => exact exists_congr fun r => and_congr_right fun _ => ih r

theorem ends_attempt {p : Prog C R ε α} {r : Except ε α} :
    (p.attempt : Prog C R ε' (Except ε α)).Ends i calls (.ok r) ↔ p.Ends i calls r := by
  induction p with
  | ret a => exact ⟨fun h => Except.ok.inj h, fun h => congrArg Except.ok h⟩
  | fail e => exact ⟨fun h => Except.ok.inj h, fun h => congrArg Except.ok h⟩
  | call c k ih => exact exists_congr fun r => and_congr_right fun _ => ih r

end Prog

section Runs

variable {ρ C : Type} {R : C → Type} {ε ω σ : Type} {sem : Semantics C R σ}
  {ok : Hist C R σ → Event C R → Prop} {handler : ρ → Prog C R ε ω} {s₀ : σ}
  {cfg : Config ρ C R ε ω σ}

/-- However the rest of a thread ends, the handler can have ended so, after the
calls the thread has made. -/
theorem Reachable.rest_ends (h : Reachable sem ok handler s₀ cfg) :
    ∀ (i : Nat) (q : ρ) (p : Prog C R ε ω), cfg.threads[i]? = some ⟨q, p⟩ →
      ∀ (calls : List (Event C R)) (res : Except ε ω), cfg.hist.callsOf i ⊆ calls →
        p.Ends i calls res → (handler q).Ends i calls res := by
  induction h with
  | refl => exact fun i q p hth => by simp [Config.initial] at hth
  | @tail mid cfg _ hstep ih =>
      intro i q p hth calls res hcalls hend
      cases hstep with
      | accept q' =>
          have hth : (mid.threads ++ [⟨q', handler q'⟩])[i]? = some ⟨q, p⟩ := hth
          rw [List.getElem?_append] at hth
          split at hth
          · exact ih i q p hth calls res hcalls hend
          · obtain ⟨rfl, rfl⟩ := Thread.mk.inj (List.mem_singleton.mp (List.mem_of_getElem? hth))
            exact hend
      | @call j q' c k ch r s' hj =>
          by_cases hij : j = i
          · subst hij
            have hth : (mid.threads.set j ⟨q', k r⟩)[j]? = some ⟨q, p⟩ := hth
            rw [List.getElem?_set_self (List.getElem?_eq_some_iff.mp hj).1] at hth
            obtain ⟨rfl, rfl⟩ := Thread.mk.inj (Option.some.inj hth)
            rw [Hist.callsOf_push_self] at hcalls
            refine ih j q' _ hj calls res (List.append_subset.mp hcalls).1 ?_
            exact ⟨r, hcalls (List.mem_append_right _ (List.mem_singleton_self _)), hend⟩
          · have hth : (mid.threads.set j ⟨q', k r⟩)[i]? = some ⟨q, p⟩ := hth
            rw [List.getElem?_set_ne hij] at hth
            rw [Hist.callsOf_push_ne (Ne.symm hij)] at hcalls
            exact ih i q p hth calls res hcalls hend
      | tick => exact ih i q p hth calls res hcalls hend

/-- A finished thread has run its handler to its outcome. -/
theorem Reachable.ends (h : Reachable sem ok handler s₀ cfg) {i : Nat} {q : ρ} {res : Except ε ω}
    (hq : cfg.request i = some q) (hres : cfg.outcome i = some res) :
    (handler q).Ends i (cfg.hist.callsOf i) res := by
  obtain ⟨q', hq', hth⟩ := Config.thread_of_outcome hres
  obtain rfl := Option.some.inj (hq'.symm.trans hq)
  exact h.rest_ends i q' _ hth _ res (List.Subset.refl _) (Prog.ends_ofExcept.mpr rfl)

end Runs

/-! From here on an end is only taken apart by its lemmas: unfolding one would run the
program. -/

attribute [irreducible] Prog.Ends

end Conc
