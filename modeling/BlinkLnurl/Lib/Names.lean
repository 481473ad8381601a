import BlinkLnurl.Lib.Trace

/-!
# A book of names

Names live in domains; each is free or held by one holder. A holder uses at most
one primary name of a domain: taking another one gives up the first. Names are
claimed, released, handed over, or come with a new holder, who may bring any
number of them.

Everything is said over arbitrary domains, names and holders. `Step` says when a
change is possible and what it leaves; `Run` is the general run of it.
-/

namespace Names

universe u v w

variable {δ : Type u} {ν : Type v} {π : Type w}

/-- Who holds a name, and whether it is the primary one of the holder. -/
structure Entry (π : Type w) where
  holder : π
  primary : Bool
deriving DecidableEq

abbrev Book (δ : Type u) (ν : Type v) (π : Type w) := δ × ν → Option (Entry π)

/-- What happens to names. -/
inductive Change (δ : Type u) (ν : Type v) (π : Type w)
  | claim (name : δ × ν) (holder : π)
  | release (name : δ × ν) (holder : π)
  | handOver (name : δ × ν) (holder : π)
  | enrol (holder : π) (names : List ((δ × ν) × Bool))
deriving DecidableEq

namespace Book

variable {b b' : Book δ ν π} {n x : δ × ν} {e y : Entry π} {p : π}

def empty : Book δ ν π := fun _ => none

variable [DecidableEq δ] [DecidableEq ν] [DecidableEq π]

/-- The name is given away, in place of the primary name its new holder had in
the domain. -/
def assign (b : Book δ ν π) (n : δ × ν) (e : Entry π) : Book δ ν π := fun x =>
  if x = n then some e
  else (b x).filter fun old => ¬ (old.holder = e.holder ∧ x.1 = n.1 ∧ old.primary = true)

/-- The name is free again. -/
def remove (b : Book δ ν π) (n : δ × ν) : Book δ ν π := fun x => if x = n then none else b x

theorem assign_eq_some : b.assign n e x = some y ↔
    (x = n ∧ y = e) ∨
      (x ≠ n ∧ b x = some y ∧ ¬ (y.holder = e.holder ∧ x.1 = n.1 ∧ y.primary = true)) := by
  unfold assign
  by_cases hx : x = n
  · rw [if_pos hx, Option.some_inj]
    exact ⟨fun h => Or.inl ⟨hx, h.symm⟩, fun h => h.elim (fun h => h.2.symm) fun h => absurd hx h.1⟩
  · rw [if_neg hx, Option.filter_eq_some_iff, decide_eq_true_eq]
    exact ⟨fun h => Or.inr ⟨hx, h⟩, fun h => h.elim (fun h => absurd h.1 hx) And.right⟩

omit [DecidableEq π] in
theorem remove_eq_some : b.remove n x = some y ↔ x ≠ n ∧ b x = some y := by
  unfold remove
  by_cases hx : x = n
  · simp [hx]
  · simp [hx]

end Book

section Steps

variable [DecidableEq δ] [DecidableEq ν] [DecidableEq π] {b b' : Book δ ν π} {c : Change δ ν π}
  {cs : List (Change δ ν π)} {p : π}

/-- Nobody's name is claimed by another, only the holder releases a name, only a
name that is held is handed over, and a new holder brings names that were free. -/
inductive Step : Book δ ν π → Change δ ν π → Book δ ν π → Prop
  | claim {b : Book δ ν π} {n : δ × ν} {p : π} : (∀ e, b n = some e → e.holder = p) →
      Step b (.claim n p) (b.assign n ⟨p, true⟩)
  | release {b : Book δ ν π} {n : δ × ν} {e : Entry π} {p : π} : b n = some e → e.holder = p →
      Step b (.release n p) (b.remove n)
  | handOver {b : Book δ ν π} {n : δ × ν} {e : Entry π} {p : π} : b n = some e →
      Step b (.handOver n p) (b.assign n ⟨p, e.primary⟩)
  | enrol {b b' : Book δ ν π} {p : π} {names : List ((δ × ν) × Bool)} :
      (∀ n e, b n = some e → e.holder ≠ p) → (∀ named ∈ names, b named.1 = none) →
      (∀ n e, b' n = some e ↔ b n = some e ∨ ∃ primary, (n, primary) ∈ names ∧ e = ⟨p, primary⟩) →
      Step b (.enrol p names) b'

/-- What a change leaves is determined. -/
theorem Step.unique {b₁ b₂ : Book δ ν π} (h₁ : Step b c b₁) (h₂ : Step b c b₂) : b₁ = b₂ := by
  cases h₁ with
  | claim _ =>
      cases h₂ with
      | claim _ => rfl
  | release _ _ =>
      cases h₂ with
      | release _ _ => rfl
  | handOver h =>
      cases h₂ with
      | handOver h' => rw [Option.some.inj (h.symm.trans h')]
  | enrol _ _ h =>
      cases h₂ with
      | enrol _ _ h' => exact funext fun n => Option.ext fun e => (h n e).trans (h' n e).symm

/-- Two primary names of the holder in a domain are one. -/
def Book.OnePrimary (b : Book δ ν π) (p : π) : Prop :=
  ∀ n n' : δ × ν, b n = some ⟨p, true⟩ → b n' = some ⟨p, true⟩ → n.1 = n'.1 → n = n'

theorem Book.onePrimary_assign {n : δ × ν} {e : Entry π} (h : b.OnePrimary p) :
    (b.assign n e).OnePrimary p := by
  intro x x' hx hx' hdomain
  rcases Book.assign_eq_some.mp hx with ⟨rfl, rfl⟩ | ⟨_, hold, hkept⟩
  · rcases Book.assign_eq_some.mp hx' with ⟨rfl, _⟩ | ⟨_, _, hkept'⟩
    · rfl
    · exact absurd ⟨rfl, hdomain.symm, rfl⟩ hkept'
  · rcases Book.assign_eq_some.mp hx' with ⟨rfl, rfl⟩ | ⟨_, hold', _⟩
    · exact absurd ⟨rfl, hdomain, rfl⟩ hkept
    · exact h x x' hold hold' hdomain

/-- A holder that does not come with names keeps to one primary name. -/
theorem Step.onePrimary (hstep : Step b c b') (hc : ∀ names, c ≠ .enrol p names)
    (h : b.OnePrimary p) : b'.OnePrimary p := by
  cases hstep with
  | claim _ => exact Book.onePrimary_assign h
  | release _ _ =>
      intro x x' hx hx'
      exact h x x' (Book.remove_eq_some.mp hx).2 (Book.remove_eq_some.mp hx').2
  | handOver _ => exact Book.onePrimary_assign h
  | @enrol _ p' names _ _ hnew =>
      have hold : ∀ {n}, b' n = some ⟨p, true⟩ → b n = some ⟨p, true⟩ := by
        intro n hn
        rcases (hnew n _).mp hn with hn | ⟨primary, _, he⟩
        · exact hn
        · obtain ⟨rfl, _⟩ := Entry.mk.inj he
          exact absurd rfl (hc names)
      intro x x' hx hx'
      exact h x x' (hold hx) (hold hx')

/-- A run of changes. -/
abbrev Run (b : Book δ ν π) (cs : List (Change δ ν π)) (b' : Book δ ν π) : Prop :=
  Lts.Run Step b cs b'

theorem Run.unique {b₁ b₂ : Book δ ν π} (h₁ : Run b cs b₁) (h₂ : Run b cs b₂) : b₁ = b₂ := by
  induction h₁ generalizing b₂ with
  | nil => exact h₂.of_nil.symm
  | snoc _ hlast ih =>
      obtain ⟨mid, hrun, hlast'⟩ := h₂.of_concat
      obtain rfl := ih hrun
      exact hlast.unique hlast'

theorem Run.onePrimary (h : Run b cs b') (hcs : ∀ c ∈ cs, ∀ names, c ≠ .enrol p names)
    (hb : b.OnePrimary p) : b'.OnePrimary p :=
  @Lts.Run.keeps _ _ Step b b' cs (fun b => b.OnePrimary p) (fun c => ∀ names, c ≠ .enrol p names)
    (fun ha hc hstep => Step.onePrimary hstep hc ha) h hcs hb

end Steps

end Names
