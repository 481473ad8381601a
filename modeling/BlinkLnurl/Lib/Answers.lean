import BlinkLnurl.Lib.Prog

/-!
# Programs under fixed answers

A program whose calls are answered by one function, the same call always in the
same way: `eval` is how it ends, `asks` what it has asked by then. Two programs
under the same answers see the same world.
-/

namespace Conc

namespace Prog

variable {C : Type} {R : C → Type} {ε α β : Type} (answers : (c : C) → R c)

/-- How a program ends. -/
def eval : Prog C R ε α → Except ε α
  | .ret a => .ok a
  | .fail e => .error e
  | .call c k => eval (k (answers c))

/-- The calls a program makes. -/
def asks : Prog C R ε α → List C
  | .ret _ => []
  | .fail _ => []
  | .call c k => c :: asks (k (answers c))

variable {answers}

@[simp] theorem eval_ret (a : α) : (ret a : Prog C R ε α).eval answers = .ok a := rfl

@[simp] theorem eval_fail (e : ε) : (fail e : Prog C R ε α).eval answers = .error e := rfl

@[simp] theorem eval_call (c : C) (k : R c → Prog C R ε α) :
    (call c k).eval answers = (k (answers c)).eval answers := rfl

@[simp] theorem eval_perform (c : C) :
    (perform c : Prog C R ε (R c)).eval answers = .ok (answers c) := rfl

@[simp] theorem eval_ofExcept (x : Except ε α) : (ofExcept x : Prog C R ε α).eval answers = x := by
  cases x <;> rfl

theorem eval_bind (p : Prog C R ε α) (f : α → Prog C R ε β) :
    (p.bind f).eval answers = (p.eval answers).bind fun a => (f a).eval answers := by
  induction p with
  | ret a => rfl
  | fail e => rfl
  | call c k ih => exact ih (answers c)

/-- A program that ends well has ended well in its first part. -/
theorem eval_bind_ok {p : Prog C R ε α} {f : α → Prog C R ε β} {b : β} :
    (p.bind f).eval answers = .ok b ↔
      ∃ a, p.eval answers = .ok a ∧ (f a).eval answers = .ok b := by
  rw [eval_bind]
  cases p.eval answers with
  | ok a => simp [Except.bind]
  | error e => simp [Except.bind]

theorem eval_require_ok {c : Prop} [Decidable c] {e : ε} {u : Unit} :
    (require c e : Prog C R ε Unit).eval answers = .ok u ↔ c := by
  unfold require
  by_cases hc : c
  · simp [hc]
  · simp [hc]

/-- What a sequence asks: what its first part asks, and if that ends well, what
the rest asks. -/
theorem mem_asks_bind {p : Prog C R ε α} {f : α → Prog C R ε β} {c : C} :
    c ∈ (p.bind f).asks answers ↔
      c ∈ p.asks answers ∨ ∃ a, p.eval answers = .ok a ∧ c ∈ (f a).asks answers := by
  induction p with
  | ret a => simp [asks]
  | fail e => simp [asks]
  | call c' k ih => simp only [call_bind, asks, List.mem_cons, ih, eval_call, or_assoc]

@[simp] theorem asks_ofExcept (x : Except ε α) :
    (ofExcept x : Prog C R ε α).asks answers = [] := by
  cases x <;> rfl

@[simp] theorem asks_require {c : Prop} [Decidable c] {e : ε} :
    (require c e : Prog C R ε Unit).asks answers = [] := by
  unfold require
  split <;> rfl

/-- A program only asks what is in its footprint. -/
theorem Calls.of_asks {P : C → Prop} {p : Prog C R ε α} (hp : p.Calls P) {c : C}
    (hc : c ∈ p.asks answers) : P c := by
  induction p with
  | ret a => exact absurd hc List.not_mem_nil
  | fail e => exact absurd hc List.not_mem_nil
  | call c' k ih =>
      obtain ⟨hc', hk⟩ := calls_call.mp hp
      rcases List.mem_cons.mp hc with rfl | hc
      · exact hc'
      · exact ih _ (hk _) hc

end Prog

end Conc
