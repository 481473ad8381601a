import BlinkLnurl.Lib.Prog

/-!
# Stretches of a run

What holds at the beginning of a stretch and no longer at its end was lost in one
of its steps (`Steps.turns`). What every call of a stretch keeps holds at its end
(`Steps.keeps_since`); the calls are those the log has gained.
-/

namespace Conc

variable {ρ C : Type} {R : C → Type} {ε ω σ : Type} {sem : Semantics C R σ}
  {ok : Hist C R σ → Event C R → Prop} {handler : ρ → Prog C R ε ω}
  {cfg cfg' : Config ρ C R ε ω σ}

/-- The step of a stretch in which a property of the state is lost. -/
theorem Steps.turns {P : σ → Prop} (h : Steps sem ok handler cfg cfg') (hP : P cfg.hist.state)
    (hlost : ¬ P cfg'.hist.state) :
    ∃ mid mid', Steps sem ok handler cfg mid ∧ Step sem ok handler mid mid' ∧
      Steps sem ok handler mid' cfg' ∧ P mid.hist.state ∧ ¬ P mid'.hist.state := by
  induction h with
  | refl => exact absurd hP hlost
  | @tail last cfg' hpre hstep ih =>
      by_cases hlast : P last.hist.state
      · exact ⟨last, cfg', hpre, hstep, .refl, hlast, hlost⟩
      · obtain ⟨mid, mid', hbefore, hturn, hafter, hmid, hmid'⟩ := ih hlast
        exact ⟨mid, mid', hbefore, hturn, hafter.tail hstep, hmid, hmid'⟩

/-- What the calls in `P` and the ticks keep holds after a stretch of such calls. -/
theorem Steps.keeps_since {I : σ → Prop} {P : Event C R → Prop}
    (hcall : ∀ {i c ch r s s'}, I s → P ⟨i, c, r⟩ → sem.exec i c ch s = some (r, s') → I s')
    (htick : ∀ {t s s'}, I s → sem.tick t s = some s' → I s')
    (h : Steps sem ok handler cfg cfg') {since : List (Event C R)}
    (hlog : cfg'.hist.log = cfg.hist.log ++ since) (hP : ∀ ev ∈ since, P ev)
    (hI : I cfg.hist.state) : I cfg'.hist.state := by
  induction h generalizing since with
  | refl => exact hI
  | @tail last cfg' hpre hstep ih =>
      obtain ⟨rest, hrest⟩ := Steps.log_prefix hpre
      cases hstep with
      | accept => exact ih hlog hP
      | tick ht => exact htick (ih hlog hP) ht
      | @call i q c k ch r s' hth hexec hok =>
          have hlog : last.hist.log ++ [⟨i, c, r⟩] = cfg.hist.log ++ since := hlog
          rw [← hrest, List.append_assoc] at hlog
          obtain rfl := List.append_cancel_left hlog
          refine hcall (ih hrest.symm fun ev hev => hP ev (List.mem_append_left _ hev)) ?_ hexec
          exact hP _ (List.mem_append_right _ (List.mem_singleton_self _))

section Replay

variable [∀ h ev, Decidable (ok h ev)] {s₀ : σ}

/-- A call that a schedule makes. -/
theorem took_of_apply {i : Nat} {pick : (c : C) → sem.Choice c}
    (hreach : Reachable sem ok handler s₀ cfg)
    (h : (Move.call i pick).apply sem ok handler cfg = some cfg') :
    ∃ ev, Took sem ok handler s₀ cfg' ev cfg cfg' ∧ ev.thread = i := by
  have hstep := Move.apply_step h
  simp only [Move.apply] at h
  split at h
  · rename_i q c k hth
    obtain ⟨out, _, hadmit⟩ := Option.bind_eq_some_iff.mp h
    split at hadmit
    · obtain rfl := Option.some.inj hadmit
      exact ⟨⟨i, c, out.1⟩, ⟨hreach, hstep, .refl, rfl⟩, rfl⟩
    · cases hadmit
  · cases h

/-- What a log holds after an entry. -/
theorem drop_of_log {log before since : List (Event C R)} {ev : Event C R}
    (h : log = before ++ ev :: since) : log.drop (before.length + 1) = since := by
  rw [h, List.append_cons]
  exact List.drop_left' (List.length_append ..)

/-- A schedule with two calls and a stretch in between. -/
theorem stretch_of_replay {ms more : List (Move ρ sem)} {i j : Nat}
    {pick pick' : (c : C) → sem.Choice c} {p p' p'' : Config ρ C R ε ω σ → Bool}
    (hfirst : (replay sem ok handler ms (.initial s₀)).any p = true)
    (hsecond : (replay sem ok handler (ms ++ .call i pick :: more) (.initial s₀)).any p' = true)
    (hlast : (replay sem ok handler ((ms ++ .call i pick :: more) ++ [.call j pick'])
      (.initial s₀)).any p'' = true) :
    ∃ cfg₁ cfg₁' cfg₂ cfg₂' ev₁ ev₂ between,
      Took sem ok handler s₀ cfg₂ ev₁ cfg₁ cfg₁' ∧ Took sem ok handler s₀ cfg₂' ev₂ cfg₂ cfg₂' ∧
      ev₁.thread = i ∧ cfg₂.hist.log = cfg₁.hist.log ++ ev₁ :: between ∧
      p cfg₁ = true ∧ p' cfg₂ = true ∧ p'' cfg₂' = true := by
  obtain ⟨cfg₂', hcfg₂', hp''⟩ := (Option.any_eq_true _ _).mp hlast
  rw [replay_append] at hcfg₂'
  obtain ⟨cfg₂, hcfg₂, hcall₂⟩ := Option.bind_eq_some_iff.mp hcfg₂'
  rw [hcfg₂] at hsecond
  have hreach₂ : Reachable sem ok handler s₀ cfg₂ := replay_steps hcfg₂
  rw [replay_append] at hcfg₂
  obtain ⟨cfg₁, hcfg₁, hrest⟩ := Option.bind_eq_some_iff.mp hcfg₂
  rw [hcfg₁] at hfirst
  obtain ⟨cfg₁', hcall₁, hmore⟩ := Option.bind_eq_some_iff.mp hrest
  obtain ⟨mid, hmid, hnil⟩ := Option.bind_eq_some_iff.mp hcall₂
  obtain rfl : mid = cfg₂' := Option.some.inj hnil
  obtain ⟨ev₁, took₁, hthread⟩ := took_of_apply (replay_steps hcfg₁) hcall₁
  obtain ⟨ev₂, took₂, _⟩ := took_of_apply hreach₂ hmid
  have hsteps : Steps sem ok handler cfg₁' cfg₂ := replay_steps hmore
  obtain ⟨between, hlog⟩ := Steps.log_prefix hsteps
  refine ⟨cfg₁, cfg₁', cfg₂, mid, ev₁, ev₂, between,
    ⟨took₁.before, took₁.step, hsteps, took₁.log⟩, took₂, hthread, ?_, hfirst, hsecond, hp''⟩
  rw [← hlog, took₁.log, List.append_assoc]
  rfl

end Replay

end Conc
