import Mathlib.Data.List.Basic
import Mathlib.Data.List.Pairwise
import Mathlib.Order.Basic

/-!
# Fixed-window counters

A counter grants `max` units in a window. A window starts with the first call
and is restarted by the first call at or after its end; the count saturates at
`cap`. `Limit.run` is what a sequence of calls gets from one counter.

Between two restarts at most `max` calls are granted (`granted_between_restarts`),
and over any stretch of time of the length of a window at most twice as many
(`granted_in_interval`), since no more than one window starts within it.
-/

namespace FixedWindow

structure Window where
  startedAt : Nat
  count : Nat
deriving DecidableEq, Repr

structure Limit where
  max : Nat
  window : Nat
  /-- The largest value of the counter. -/
  cap : Nat

/-- What one call got. -/
structure Spent where
  now : Nat
  restarted : Bool
  granted : Bool
deriving DecidableEq, Repr

namespace Limit

variable (l : Limit)

/-- `duration_since` is zero where the window starts later. -/
def expired (now : Nat) (w : Window) : Bool := l.window ≤ now - w.startedAt

/-- A call at `now` starts a window. -/
def restarts (now : Nat) (o : Option Window) : Bool := o.all (l.expired now)

/-- The window a call at `now` counts in. -/
def enter (now : Nat) (o : Option Window) : Window :=
  match o with
  | none => ⟨now, 0⟩
  | some w => if l.expired now w then ⟨now, 0⟩ else w

/-- A call at `now`: whether it is granted, and the window after it. -/
def spend (now : Nat) (o : Option Window) : Bool × Window :=
  let w := l.enter now o
  let count := min (w.count + 1) l.cap
  (count ≤ l.max, { w with count })

/-- What the calls at the given times get. -/
def run (o : Option Window) : List Nat → List Spent
  | [] => []
  | now :: rest => ⟨now, l.restarts now o, (l.spend now o).1⟩ :: run (some (l.spend now o).2) rest

variable {l} {o : Option Window} {w : Window} {now t : Nat} {times : List Nat}

theorem enter_of_restarts (h : l.restarts now o = true) : l.enter now o = ⟨now, 0⟩ := by
  cases o with
  | none => rfl
  | some w => exact if_pos h

theorem enter_of_live (h : l.expired now w = false) : l.enter now (some w) = w := by
  unfold enter
  simp only [h, Bool.false_eq_true, if_false]

/-- An untracked counter and an expired one are alike. -/
theorem spend_of_restarts (h : l.restarts now o = true) : l.spend now o = l.spend now none := by
  unfold spend
  rw [enter_of_restarts h]
  rfl

theorem expired_mono {later : Nat} (hle : now ≤ later) (h : l.expired now w = true) :
    l.expired later w = true := by
  unfold expired at h ⊢
  rw [decide_eq_true_eq] at h ⊢
  omega

/-- A call takes one unit of what is left, or is refused and takes none. -/
theorem spend_budget (hcap : l.max < l.cap) (now : Nat) (o : Option Window) :
    (l.spend now o).2.startedAt = (l.enter now o).startedAt ∧
      (if (l.spend now o).1 then 1 else 0) + (l.max - (l.spend now o).2.count) ≤
        l.max - (l.enter now o).count := by
  refine ⟨rfl, ?_⟩
  unfold spend
  simp only [decide_eq_true_eq]
  split <;> omega

theorem now_of_mem_run {s : Spent} (h : s ∈ l.run o times) : s.now ∈ times := by
  induction times generalizing o with
  | nil => exact absurd h List.not_mem_nil
  | cons now rest ih =>
      rcases List.mem_cons.mp h with rfl | h
      · exact List.mem_cons_self
      · exact List.mem_cons_of_mem _ (ih h)

/-- Nothing is counted from the first call on that is too late. -/
theorem countP_eq_zero_of_late {p : Spent → Bool} {bound : Nat} (hlate : ∀ x ∈ times, bound ≤ x) :
    (l.run o times).countP (fun s => p s && decide (s.now < bound)) = 0 := by
  refine List.countP_eq_zero.mpr fun s hs => ?_
  have hle := hlate s.now (now_of_mem_run hs)
  rw [Bool.and_eq_true, decide_eq_true_eq]
  intro h
  omega

/-! ## The bounds -/

/-- Before a window ends, what is left of it is granted at most. -/
theorem granted_before_end (hcap : l.max < l.cap) (hwindow : 0 < l.window)
    (hsorted : times.Pairwise (· ≤ ·)) :
    (l.run (some w) times).countP (fun s => s.granted && decide (s.now < w.startedAt + l.window)) ≤
      l.max - w.count := by
  induction times generalizing w with
  | nil => exact Nat.zero_le _
  | cons now rest ih =>
      obtain ⟨hle, hrest⟩ := List.pairwise_cons.mp hsorted
      by_cases hin : now < w.startedAt + l.window
      · have hlive : l.expired now w = false := by
          unfold expired
          rw [decide_eq_false_iff_not]
          omega
        obtain ⟨hstart, hbudget⟩ := spend_budget hcap now (some w)
        rw [enter_of_live hlive] at hstart hbudget
        have hlater := ih (w := (l.spend now (some w)).2) hrest
        rw [hstart] at hlater
        rw [run, List.countP_cons]
        simp only [hin, decide_true, Bool.and_true]
        omega
      · refine Nat.le_trans (Nat.le_of_eq (countP_eq_zero_of_late ?_)) (Nat.zero_le _)
        intro x hx
        rcases List.mem_cons.mp hx with rfl | hx
        · omega
        · exact Nat.le_trans (Nat.le_of_not_lt hin) (hle x hx)

/-- From `t` on and for the length of a window: what is left of the window the
counter is in, and one window more. -/
theorem granted_from (hcap : l.max < l.cap) (hwindow : 0 < l.window)
    (hsorted : times.Pairwise (· ≤ ·)) (hfrom : ∀ x ∈ times, t ≤ x) :
    (l.run (some w) times).countP (fun s => s.granted && decide (s.now < t + l.window)) ≤
      (l.max - w.count) + l.max := by
  induction times generalizing w with
  | nil => exact Nat.zero_le _
  | cons now rest ih =>
      obtain ⟨hle, hrest⟩ := List.pairwise_cons.mp hsorted
      have hnow := hfrom now List.mem_cons_self
      obtain ⟨hstart, hbudget⟩ := spend_budget hcap now (some w)
      rw [run, List.countP_cons]
      dsimp only
      have hgranted : (if (l.spend now (some w)).1 && decide (now < t + l.window) then 1 else 0) ≤
          if (l.spend now (some w)).1 then 1 else 0 := by
        split
        · rename_i h
          rw [Bool.and_eq_true] at h
          exact Nat.le_of_eq (if_pos h.1).symm
        · exact Nat.zero_le _
      by_cases hexpired : l.expired now w = true
      · -- a window starts, and lasts beyond the stretch
        rw [enter_of_restarts (o := some w) hexpired] at hstart hbudget
        have hlater := granted_before_end (w := (l.spend now (some w)).2) hcap hwindow hrest
        rw [hstart] at hlater
        have hmono : (l.run (some (l.spend now (some w)).2) rest).countP
            (fun s => s.granted && decide (s.now < t + l.window)) ≤
            (l.run (some (l.spend now (some w)).2) rest).countP
              (fun s => s.granted && decide (s.now < now + l.window)) := by
          refine List.countP_mono_left fun s _ h => ?_
          rw [Bool.and_eq_true, decide_eq_true_eq] at h ⊢
          exact ⟨h.1, by omega⟩
        dsimp only at hlater hbudget
        omega
      · rw [enter_of_live (Bool.eq_false_iff.mpr hexpired)] at hbudget
        have hlater := ih (w := (l.spend now (some w)).2) hrest
          fun x hx => hfrom x (List.mem_cons_of_mem _ hx)
        omega

/-- Over any stretch of time of the length of a window, at most twice the
budget of one is granted. -/
theorem granted_in_interval (hcap : l.max < l.cap) (hwindow : 0 < l.window)
    (hsorted : times.Pairwise (· ≤ ·)) (t : Nat) :
    (l.run o times).countP
      (fun s => s.granted && decide (t ≤ s.now) && decide (s.now < t + l.window)) ≤ 2 * l.max := by
  induction times generalizing o with
  | nil => exact Nat.zero_le _
  | cons now rest ih =>
      obtain ⟨hle, hrest⟩ := List.pairwise_cons.mp hsorted
      by_cases hfrom : t ≤ now
      · -- the state before the first call in the stretch is as good as a window
        obtain ⟨w, hw⟩ : ∃ w, l.run o (now :: rest) =
            ⟨now, l.restarts now o, (l.spend now (some w)).1⟩ ::
              l.run (some (l.spend now (some w)).2) rest := by
          cases o with
          | none =>
              have hsame : l.spend now none = l.spend now (some ⟨now, 0⟩) := by
                have henter : l.enter now (some ⟨now, 0⟩) = ⟨now, 0⟩ := by
                  unfold enter
                  simp only [ite_self]
                unfold spend
                rw [henter]
                rfl
              exact ⟨⟨now, 0⟩, by rw [run, hsame]⟩
          | some w => exact ⟨w, rfl⟩
        have hlater : ∀ x ∈ now :: rest, t ≤ x := by
          intro x hx
          rcases List.mem_cons.mp hx with rfl | hx
          · exact hfrom
          · exact Nat.le_trans hfrom (hle x hx)
        have hbound := granted_from (w := w) hcap hwindow hsorted hlater
        have hsame : (l.run o (now :: rest)).countP
            (fun s => s.granted && decide (t ≤ s.now) && decide (s.now < t + l.window)) ≤
            (l.run (some w) (now :: rest)).countP
              (fun s => s.granted && decide (s.now < t + l.window)) := by
          rw [hw, run, List.countP_cons, List.countP_cons]
          refine Nat.add_le_add (List.countP_mono_left fun s _ h => ?_) (Nat.le_of_eq ?_)
          · rw [Bool.and_eq_true, Bool.and_eq_true] at h
            rw [Bool.and_eq_true]
            exact ⟨h.1.1, h.2⟩
          · simp only [hfrom, decide_true, Bool.and_true]
        omega
      · rw [run, List.countP_cons]
        have hskipped : decide (t ≤ now) = false := decide_eq_false hfrom
        simp only [hskipped, Bool.and_false, Bool.false_and, Bool.false_eq_true, if_false]
        exact ih hrest

/-- Until the next restart, what is left of a window is granted at most. -/
theorem granted_until_restart (hcap : l.max < l.cap) {mid back : List Spent}
    (hrun : l.run (some w) times = mid ++ back) (hmid : ∀ s ∈ mid, s.restarted = false) :
    mid.countP Spent.granted ≤ l.max - w.count := by
  induction mid generalizing w times with
  | nil => exact Nat.zero_le _
  | cons s mid ih =>
      cases times with
      | nil => exact nomatch hrun
      | cons now rest =>
          rw [run, List.cons_append] at hrun
          injection hrun with hfirst hrest
          have hlive : l.expired now w = false := by
            have hnot := hmid s List.mem_cons_self
            rw [← hfirst] at hnot
            exact hnot
          have hbudget := (spend_budget hcap now (some w)).2
          rw [enter_of_live hlive] at hbudget
          have hlater := ih hrest fun x hx => hmid x (List.mem_cons_of_mem _ hx)
          rw [List.countP_cons, ← hfirst]
          simp only
          omega

/-- Between two restarts at most the budget of one window is granted. -/
theorem granted_between_restarts (hcap : l.max < l.cap) {front mid back : List Spent} {s : Spent}
    (hrun : l.run o times = front ++ s :: mid ++ back) (hrestarted : s.restarted = true)
    (hmid : ∀ s' ∈ mid, s'.restarted = false) : (s :: mid).countP Spent.granted ≤ l.max := by
  induction front generalizing o times with
  | nil =>
      cases times with
      | nil => exact nomatch hrun
      | cons now rest =>
          rw [run, List.nil_append, List.cons_append] at hrun
          injection hrun with hfirst hrest
          have hstarts : l.restarts now o = true := by
            rw [← hfirst] at hrestarted
            exact hrestarted
          have hbudget := (spend_budget hcap now o).2
          rw [enter_of_restarts hstarts] at hbudget
          have hlater := granted_until_restart hcap hrest hmid
          rw [List.countP_cons, ← hfirst]
          simp only at hbudget ⊢
          omega
  | cons x front ih =>
      cases times with
      | nil => exact nomatch hrun
      | cons now rest =>
          rw [run, List.cons_append, List.cons_append] at hrun
          injection hrun with _ hrest
          exact ih hrest

end Limit

end FixedWindow
