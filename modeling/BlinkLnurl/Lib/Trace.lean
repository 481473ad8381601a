import Mathlib.Data.List.Induction

/-!
# Runs of a labelled transition relation

A run from one state to another with the events of its steps, for a relation
over any states and events. An invariant is a property that each step keeps;
`Run.keeps` carries one along a run whose events meet a side condition, and
`Run.split` takes a run apart where its events are.
-/

namespace Lts

universe u v

variable {σ : Type u} {ε : Type v}

/-- The steps between two states, in order. -/
inductive Run (step : σ → ε → σ → Prop) (s : σ) : List ε → σ → Prop
  | nil : Run step s [] s
  | snoc {es : List ε} {mid s' : σ} {e : ε} :
      Run step s es mid → step mid e s' → Run step s (es ++ [e]) s'

namespace Run

variable {step : σ → ε → σ → Prop} {s mid s' : σ} {e : ε} {es es' : List ε}

theorem single (h : step s e s') : Run step s [e] s' := .snoc .nil h

theorem of_nil (h : Run step s [] s') : s' = s := by
  generalize hes : ([] : List ε) = all at h
  cases h with
  | nil => rfl
  | snoc => exact absurd hes.symm (List.concat_ne_nil _ _)

/-- The last step of a run. -/
theorem of_concat (h : Run step s (es ++ [e]) s') : ∃ mid, Run step s es mid ∧ step mid e s' := by
  generalize hes : es ++ [e] = all at h
  cases h with
  | nil => exact absurd hes (List.concat_ne_nil e es)
  | snoc hrun hstep =>
      obtain ⟨rfl, rfl⟩ := List.append_singleton_inj.mp hes
      exact ⟨_, hrun, hstep⟩

/-- A run whose events are two stretches passes a state between them. -/
theorem split (h : Run step s (es ++ es') s') : ∃ mid, Run step s es mid ∧ Run step mid es' s' := by
  induction es' using List.reverseRecOn generalizing s' with
  | nil =>
      rw [List.append_nil] at h
      exact ⟨s', h, .nil⟩
  | append_singleton es' e ih =>
      rw [← List.append_assoc] at h
      obtain ⟨last, hrun, hstep⟩ := of_concat h
      obtain ⟨mid, hpre, hpost⟩ := ih hrun
      exact ⟨mid, hpre, hpost.snoc hstep⟩

/-- The first step of a run. -/
theorem of_cons (h : Run step s (e :: es) s') : ∃ mid, step s e mid ∧ Run step mid es s' := by
  have h : Run step s ([e] ++ es) s' := h
  obtain ⟨mid, hfirst, hrest⟩ := h.split
  have hfirst : Run step s ([] ++ [e]) mid := hfirst
  obtain ⟨start, hnil, hstep⟩ := hfirst.of_concat
  obtain rfl := hnil.of_nil
  exact ⟨mid, hstep, hrest⟩

/-- What each step keeps holds after a run. -/
theorem keeps {inv : σ → Prop} {ok : ε → Prop}
    (hstep : ∀ {a b e}, inv a → ok e → step a e b → inv b) (h : Run step s es s')
    (hok : ∀ e ∈ es, ok e) (hinv : inv s) : inv s' := by
  induction h with
  | nil => exact hinv
  | snoc _ hlast ih =>
      have hpre := ih fun e he => hok e (List.mem_append_left _ he)
      exact hstep hpre (hok _ (List.mem_append_right _ (List.mem_singleton_self _))) hlast

/-- The same without a side condition. -/
theorem invariant {inv : σ → Prop} (hstep : ∀ {a b e}, inv a → step a e b → inv b)
    (h : Run step s es s') (hinv : inv s) : inv s' := by
  have hkeep : ∀ {a b : σ} {e : ε}, inv a → (fun _ : ε => True) e → step a e b → inv b :=
    fun ha _ hab => hstep ha hab
  exact h.keeps hkeep (fun _ _ => trivial) hinv

end Run

end Lts
