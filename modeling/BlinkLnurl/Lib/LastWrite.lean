import Mathlib.Data.List.DropRight

/-!
# Registers and their logs

`lastWrite writes v log` is what a register holds after the entries of a log, if
it held `v` before it and `writes` says what an entry writes. An access that was
prepared by an earlier entry takes no account of what comes after that entry
(`sinceLast`); if the register held its initial value then, what the access has
missed is all there is (`lastWrite_since`). A register that is `SetOnce` holds what
was ever written to it.
-/

namespace Conc

variable {E V : Type} {writes : E → Option V} {p : E → Bool} {v x : V}
  {log log' before since : List E} {ev : E}

def lastWrite (writes : E → Option V) (v : V) (log : List E) : V :=
  log.foldl (fun v ev => (writes ev).getD v) v

theorem lastWrite_concat :
    lastWrite writes v (log ++ [ev]) = (writes ev).getD (lastWrite writes v log) :=
  List.foldl_concat ..

theorem lastWrite_append :
    lastWrite writes v (log ++ log') = lastWrite writes (lastWrite writes v log) log' :=
  List.foldl_append ..

/-- A value that was not there from the start was written by some entry, and by
none since. -/
theorem exists_of_lastWrite (h : lastWrite writes v log = x) (hne : x ≠ v) :
    ∃ before ev since, log = before ++ ev :: since ∧ writes ev = some x ∧
      ∀ y ∈ since, writes y = none := by
  induction log using List.reverseRecOn with
  | nil => exact absurd h.symm hne
  | append_singleton log ev ih =>
      rw [lastWrite_concat] at h
      cases hev : writes ev with
      | some x' =>
          rw [hev] at h
          obtain rfl : x' = x := h
          exact ⟨log, ev, [], rfl, hev, fun y hy => absurd hy List.not_mem_nil⟩
      | none =>
          rw [hev] at h
          obtain ⟨before, ev', since, rfl, hwrites, hsince⟩ := ih h
          refine ⟨before, ev', since ++ [ev], by rw [List.append_assoc, List.cons_append],
            hwrites, ?_⟩
          intro y hy
          rcases List.mem_append.mp hy with hy | hy
          · exact hsince y hy
          · rw [List.mem_singleton.mp hy]
            exact hev

/-- The entries since the last one with `p`. -/
def sinceLast (p : E → Bool) (log : List E) : List E := log.rtakeWhile fun ev => !p ev

theorem rtakeWhile_since (hx : p ev = false) (hsince : ∀ y ∈ since, p y = true) :
    (before ++ ev :: since).rtakeWhile p = since := by
  have hrev : (before ++ ev :: since).reverse = since.reverse ++ ev :: before.reverse := by simp
  unfold List.rtakeWhile
  rw [hrev, List.takeWhile_append_of_pos fun y hy => hsince y (List.mem_reverse.mp hy),
    List.takeWhile_cons_of_neg (by rw [hx]; exact Bool.false_ne_true), List.append_nil,
    List.reverse_reverse]

theorem sinceLast_split (hev : p ev = true) (hsince : ∀ y ∈ since, p y = false) :
    sinceLast p (before ++ ev :: since) = since := by
  refine rtakeWhile_since ?_ fun y hy => ?_
  · rw [hev]
    rfl
  · rw [hsince y hy]
    rfl

/-- What was written since an entry that has found the initial value. -/
theorem lastWrite_since (hbefore : lastWrite writes v before = v) (hev : writes ev = none) :
    lastWrite writes v (before ++ ev :: since) = lastWrite writes v since := by
  rw [lastWrite_append, hbefore]
  show lastWrite writes ((writes ev).getD v) since = _
  rw [hev]
  rfl

/-! ## Registers that are set once -/

/-- After a value was written, nothing else is. -/
def SetOnce (writes : E → Option (Option V)) (log : List E) : Prop :=
  log.Pairwise fun ev later => ∀ x y, writes ev = some (some x) → writes later = some y → y = some x

section SetOnce

variable {writes : E → Option (Option V)} {x : V}

theorem setOnce_nil : SetOnce writes [] := List.Pairwise.nil

/-- The register holds the value that was written. -/
theorem SetOnce.lastWrite_eq (h : SetOnce writes log) (hmem : ev ∈ log)
    (hev : writes ev = some (some x)) : lastWrite writes none log = some x := by
  obtain ⟨before, since, rfl⟩ := List.append_of_mem hmem
  obtain ⟨-, hcons, -⟩ := List.pairwise_append.mp h
  have hlater := (List.pairwise_cons.mp hcons).1
  rw [lastWrite_append]
  show lastWrite writes ((writes ev).getD _) since = some x
  rw [hev]
  show lastWrite writes (some x) since = some x
  clear h hmem hcons
  induction since with
  | nil => rfl
  | cons next rest ih =>
      show lastWrite writes ((writes next).getD (some x)) rest = some x
      have hnext : (writes next).getD (some x) = some x := by
        cases hwrites : writes next with
        | none => rfl
        | some y => exact hlater next List.mem_cons_self x y hev hwrites
      rw [hnext]
      exact ih fun y hy => hlater y (List.mem_cons_of_mem _ hy)

/-- One more entry: it writes what the register holds, if it holds anything. -/
theorem setOnce_concat :
    SetOnce writes (log ++ [ev]) ↔ SetOnce writes log ∧
      ∀ x y, lastWrite writes none log = some x → writes ev = some y → y = some x := by
  unfold SetOnce
  rw [List.pairwise_append]
  constructor
  · intro ⟨hlog, _, hcross⟩
    refine ⟨hlog, fun x y hlast hev => ?_⟩
    obtain ⟨before, written, since, rfl, hwritten, _⟩ :=
      exists_of_lastWrite hlast (Option.some_ne_none _)
    exact hcross written (List.mem_append_right _ List.mem_cons_self) ev List.mem_cons_self x y
      hwritten hev
  · intro ⟨hlog, hlast⟩
    refine ⟨hlog, List.pairwise_singleton _ _, fun written hmem ev' hev' x y hwritten hev => ?_⟩
    obtain rfl := List.mem_singleton.mp hev'
    exact hlast x y (SetOnce.lastWrite_eq hlog hmem hwritten) hev

end SetOnce

end Conc
