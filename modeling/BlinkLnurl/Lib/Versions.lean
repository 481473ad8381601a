import BlinkLnurl.Lib.Table

/-!
# Tables under multi-version concurrency control

What a database stores of a table while transactions are open: a list of row
*versions*. A version names the open transaction that wrote it (`writer`) and the one
that has deleted or replaced it (`eraser`); `none` is for writers that have committed
and for no eraser.

* A transaction sees the committed versions and its own, less those it has erased
  itself (`Sees`). What another open transaction has written or erased does not show.
* A row another open transaction has erased is locked; a key under which one has
  written is taken until it ends. A statement that needs either one waits.
* `commit` and `rollback` settle what a transaction has written and erased.

Two versions of one row, or of rows that clash, are never both live: one transaction
has put one of them in the place of the other (`Apart`). This is a field of the
structure, so what a transaction sees is a `Table`, and so is what is committed.

Statements end in an `Attempt`. What the statements of one transaction can do to a
table is said once, in `WrittenBy`.
-/

namespace Rel

universe u

structure Version (ρ : Type u) where
  rowId : Nat
  row : ρ
  writer : Option Nat
  eraser : Option Nat

namespace Version

variable {ρ : Type u} {t : Nat} {v w : Version ρ} {q : Version ρ → Bool}

/-- The transaction `t` sees the version. -/
def Sees (t : Nat) (v : Version ρ) : Prop :=
  (v.writer = none ∨ v.writer = some t) ∧ v.eraser ≠ some t

/-- The transaction `t` sees the version, and nobody else has a lock on it. -/
def IsLive (t : Nat) (v : Version ρ) : Prop :=
  (v.writer = none ∨ v.writer = some t) ∧ v.eraser = none

instance : Decidable (Sees t v) :=
  inferInstanceAs (Decidable ((v.writer = none ∨ v.writer = some t) ∧ v.eraser ≠ some t))

instance : Decidable (IsLive t v) :=
  inferInstanceAs (Decidable ((v.writer = none ∨ v.writer = some t) ∧ v.eraser = none))

/-- An open transaction has put `w` in the place of `v`. -/
def Replaced (v w : Version ρ) : Prop := w.writer ≠ none ∧ v.eraser = w.writer

def Apart [Schema ρ] (v w : Version ρ) : Prop :=
  v.rowId = w.rowId ∨ Schema.clash v.row w.row → Replaced v w ∨ Replaced w v

theorem Apart.symm [Schema ρ] (h : Apart v w) : Apart w v := fun hclash =>
  (h (hclash.imp Eq.symm Schema.clash_symm)).symm

/-- Of two versions, one in the place of the other, nobody sees both. -/
theorem not_replaced_of_sees (hv : Sees t v) (hw : Sees t w) : ¬ Replaced v w := by
  intro ⟨hwriter, heraser⟩
  rcases hw.1 with hnone | hown
  · exact hwriter hnone
  · exact hv.2 (heraser.trans hown)

/-- Nobody has put a committed version in the place of another. -/
theorem not_replaced_of_committed (hw : w.writer = none) : ¬ Replaced v w := fun h => h.1 hw

/-- The transaction `t` erases the version, if it is live and one of `q`. -/
def erase (t : Nat) (q : Version ρ → Bool) (v : Version ρ) : Version ρ :=
  if IsLive t v ∧ q v = true then { v with eraser := some t } else v

@[simp] theorem erase_rowId : (v.erase t q).rowId = v.rowId := by
  unfold erase
  split <;> rfl

@[simp] theorem erase_row : (v.erase t q).row = v.row := by
  unfold erase
  split <;> rfl

@[simp] theorem erase_writer : (v.erase t q).writer = v.writer := by
  unfold erase
  split <;> rfl

theorem erase_of_eraser (h : v.eraser ≠ none) : v.erase t q = v :=
  if_neg fun hlive => h hlive.1.2

theorem erase_of_not (h : q v = false) : v.erase t q = v :=
  if_neg fun hlive => by simp [h] at hlive

theorem Replaced.erase (h : Replaced v w) : Replaced (v.erase t q) (w.erase t q) := by
  have heraser : v.eraser ≠ none := by
    rw [h.2]
    exact h.1
  refine ⟨?_, ?_⟩
  · rw [erase_writer]
    exact h.1
  · rw [erase_of_eraser heraser, erase_writer]
    exact h.2

/-- The transaction `t` commits. -/
def settle (t : Nat) (v : Version ρ) : Version ρ :=
  if v.writer = some t then { v with writer := none } else v

/-- The transaction `t` is rolled back. -/
def release (t : Nat) (v : Version ρ) : Version ρ :=
  if v.eraser = some t then { v with eraser := none } else v

@[simp] theorem settle_rowId : (v.settle t).rowId = v.rowId := by
  unfold settle
  split <;> rfl

@[simp] theorem settle_row : (v.settle t).row = v.row := by
  unfold settle
  split <;> rfl

@[simp] theorem settle_eraser : (v.settle t).eraser = v.eraser := by
  unfold settle
  split <;> rfl

theorem settle_writer_eq_none :
    (v.settle t).writer = none ↔ v.writer = none ∨ v.writer = some t := by
  unfold settle
  split
  · rename_i h
    simp [h]
  · rename_i h
    simp [h]

@[simp] theorem release_rowId : (v.release t).rowId = v.rowId := by
  unfold release
  split <;> rfl

@[simp] theorem release_row : (v.release t).row = v.row := by
  unfold release
  split <;> rfl

@[simp] theorem release_writer : (v.release t).writer = v.writer := by
  unfold release
  split <;> rfl

/-- What took another's place still does when an uninvolved transaction ends. -/
theorem Replaced.settle (h : Replaced v w) (hv : v.eraser ≠ some t) :
    Replaced (v.settle t) (w.settle t) := by
  have hsame : w.settle t = w := if_neg fun hw => hv (h.2.trans hw)
  rw [hsame]
  exact ⟨h.1, by rw [settle_eraser, h.2]⟩

theorem Replaced.release (h : Replaced v w) (hw : w.writer ≠ some t) :
    Replaced (v.release t) (w.release t) := by
  have hsame : v.release t = v := if_neg fun hv => hw (h.2.symm.trans hv)
  rw [hsame]
  exact ⟨by rw [release_writer]; exact h.1, by rw [release_writer, h.2]⟩

/-- The rows of a table that no open transaction has touched. -/
def number : Nat → List ρ → List (Version ρ)
  | _, [] => []
  | n, r :: rest => ⟨n, r, none, none⟩ :: number (n + 1) rest

theorem mem_number {n : Nat} {rows : List ρ} (h : v ∈ number n rows) :
    n ≤ v.rowId ∧ v.rowId < n + rows.length ∧ v.row ∈ rows ∧ v.writer = none ∧ v.eraser = none := by
  induction rows generalizing n with
  | nil => exact absurd h List.not_mem_nil
  | cons r rest ih =>
      rcases List.mem_cons.mp h with rfl | h
      · exact ⟨Nat.le_refl n, by simp, List.mem_cons_self, rfl, rfl⟩
      · obtain ⟨hle, hlt, hrow, hrest⟩ := ih h
        refine ⟨by omega, ?_, List.mem_cons_of_mem _ hrow, hrest⟩
        rw [List.length_cons]
        omega

theorem exists_mem_number {n : Nat} {rows : List ρ} {r : ρ} (h : r ∈ rows) :
    ∃ v ∈ number n rows, v.row = r := by
  induction rows generalizing n with
  | nil => exact absurd h List.not_mem_nil
  | cons r' rest ih =>
      rcases List.mem_cons.mp h with rfl | h
      · exact ⟨_, List.mem_cons_self, rfl⟩
      · obtain ⟨v, hv, hrow⟩ := ih h
        exact ⟨v, List.mem_cons_of_mem _ hv, hrow⟩

end Version

open Version

/-- The versions of a table's rows. -/
structure Versions (ρ : Type u) [Schema ρ] where
  versions : List (Version ρ)
  nextId : Nat
  fresh : ∀ v ∈ versions, v.rowId < nextId
  apart : versions.Pairwise Apart

/-- How a statement fares: it is done, it violates a unique index, or it waits for
another transaction to end. -/
inductive Attempt (α : Type u)
  | done (a : α)
  | refused
  | waits

namespace Attempt

universe w

variable {α : Type u} {β : Type w}

def map (f : α → β) : Attempt α → Attempt β
  | done a => .done (f a)
  | refused => .refused
  | waits => .waits

theorem map_eq_done {f : α → β} {x : Attempt α} {b : β} :
    x.map f = .done b ↔ ∃ a, x = .done a ∧ f a = b := by
  cases x with
  | done a =>
      constructor
      · intro h
        cases h
        exact ⟨a, rfl, rfl⟩
      · rintro ⟨_, h, rfl⟩
        cases h
        rfl
  | refused => exact ⟨fun h => (nomatch h), fun ⟨_, h, _⟩ => (nomatch h)⟩
  | waits => exact ⟨fun h => (nomatch h), fun ⟨_, h, _⟩ => (nomatch h)⟩

end Attempt

namespace Versions

variable {ρ : Type u} [Schema ρ] {t : Nat} {T T' : Versions ρ} {v w : Version ρ}

theorem apart_of_ne (hv : v ∈ T.versions) (hw : w ∈ T.versions) (hne : v ≠ w) : Apart v w := by
  have hsymm : Std.Symm (Apart : Version ρ → Version ρ → Prop) := ⟨fun _ _ => Apart.symm⟩
  exact T.apart.forall hv hw hne

/-! ## What is seen and what is committed -/

/-- The rows the transaction `t` sees. -/
def view (t : Nat) (T : Versions ρ) : Table ρ where
  rows := (T.versions.filter fun v => decide (Sees t v)).map Version.row
  unique := by
    rw [List.pairwise_map]
    refine (T.apart.filter _).imp_of_mem ?_
    intro v w hv hw hapart hclash
    have hv := of_decide_eq_true (List.mem_filter.mp hv).2
    have hw := of_decide_eq_true (List.mem_filter.mp hw).2
    rcases hapart (Or.inr hclash) with h | h
    · exact not_replaced_of_sees hv hw h
    · exact not_replaced_of_sees hw hv h

/-- The rows that are committed. -/
def committed (T : Versions ρ) : Table ρ where
  rows := (T.versions.filter fun v => decide (v.writer = none)).map Version.row
  unique := by
    rw [List.pairwise_map]
    refine (T.apart.filter _).imp_of_mem ?_
    intro v w hv hw hapart hclash
    have hv := of_decide_eq_true (List.mem_filter.mp hv).2
    have hw := of_decide_eq_true (List.mem_filter.mp hw).2
    rcases hapart (Or.inr hclash) with h | h
    · exact not_replaced_of_committed hw h
    · exact not_replaced_of_committed hv h

theorem mem_view {r : ρ} : r ∈ T.view t ↔ ∃ v ∈ T.versions, Sees t v ∧ v.row = r := by
  simp [← Table.mem_rows, view, and_assoc]

theorem mem_committed {r : ρ} :
    r ∈ T.committed ↔ ∃ v ∈ T.versions, v.writer = none ∧ v.row = r := by
  simp [← Table.mem_rows, committed, and_assoc]

theorem pairwise_number {n : Nat} {rows : List ρ}
    (h : rows.Pairwise fun a b => ¬ Schema.clash a b) : (number n rows).Pairwise Apart := by
  induction rows generalizing n with
  | nil => exact .nil
  | cons r rest ih =>
      obtain ⟨hhead, htail⟩ := List.pairwise_cons.mp h
      refine .cons ?_ (ih htail)
      intro w hw hclash
      obtain ⟨hle, _, hrow, _⟩ := mem_number hw
      rcases hclash with hid | hclash
      · have hid : n = w.rowId := hid
        omega
      · exact absurd hclash (hhead _ hrow)

/-- A table that no open transaction has touched. -/
def ofTable (t : Table ρ) : Versions ρ where
  versions := number 0 t.rows
  nextId := t.rows.length
  fresh := fun v hv => by
    have hlt := (mem_number hv).2.1
    omega
  apart := pairwise_number t.unique

theorem mem_ofTable {s : Table ρ} (h : v ∈ (ofTable s).versions) :
    v.row ∈ s ∧ v.writer = none ∧ v.eraser = none := (mem_number h).2.2

theorem exists_mem_ofTable {s : Table ρ} {r : ρ} (h : r ∈ s) :
    ∃ v ∈ (ofTable s).versions, v.row = r := exists_mem_number h

/-! ## Writing -/

/-- The transaction `t` erases the live versions of `q`. -/
def erase (t : Nat) (q : Version ρ → Bool) (T : Versions ρ) : Versions ρ where
  versions := T.versions.map (Version.erase t q)
  nextId := T.nextId
  fresh := by
    intro v hv
    obtain ⟨w, hw, rfl⟩ := List.mem_map.mp hv
    rw [erase_rowId]
    exact T.fresh w hw
  apart := by
    rw [List.pairwise_map]
    refine T.apart.imp ?_
    intro v w hapart hclash
    rw [erase_rowId, erase_rowId, erase_row, erase_row] at hclash
    exact (hapart hclash).imp Replaced.erase Replaced.erase

/-- Nothing stands in the way of a version of the row `rowId` with the columns `r`
but what `t` has erased. -/
def Free (t rowId : Nat) (r : ρ) (T : Versions ρ) : Prop :=
  ∀ v ∈ T.versions, v.rowId = rowId ∨ Schema.clash v.row r → v.eraser = some t

instance {rowId : Nat} {r : ρ} : Decidable (T.Free t rowId r) :=
  inferInstanceAs (Decidable
    (∀ v ∈ T.versions, v.rowId = rowId ∨ Schema.clash v.row r → v.eraser = some t))

def write (t rowId : Nat) (r : ρ) (T : Versions ρ) (hfree : T.Free t rowId r) : Versions ρ where
  versions := T.versions ++ [⟨rowId, r, some t, none⟩]
  nextId := max T.nextId (rowId + 1)
  fresh := by
    intro v hv
    rcases List.mem_append.mp hv with hv | hv
    · have hlt := T.fresh v hv
      omega
    · rw [List.mem_singleton.mp hv]
      show rowId < _
      omega
  apart := by
    rw [List.pairwise_append]
    refine ⟨T.apart, List.pairwise_singleton _ _, ?_⟩
    intro v hv w hw hclash
    obtain rfl := List.mem_singleton.mp hw
    exact Or.inl ⟨Option.some_ne_none t, hfree v hv hclash⟩

/-- Write a version of the row `rowId`, if the unique indexes allow it. -/
def put (t rowId : Nat) (r : ρ) (T : Versions ρ) : Attempt (Versions ρ) :=
  if hfree : T.Free t rowId r then .done (T.write t rowId r hfree)
  else if ∃ v ∈ T.versions, IsLive t v ∧ Schema.clash v.row r then .refused
  -- what stands in the way is another transaction's row or lock
  else .waits

theorem put_eq_done {rowId : Nat} {r : ρ} (h : T.put t rowId r = .done T') :
    T'.versions = T.versions ++ [⟨rowId, r, some t, none⟩] := by
  unfold put at h
  split at h
  · cases h
    rfl
  · split at h <;> cases h

/-! ## Statements -/

/-- `INSERT`. -/
def insert (t : Nat) (r : ρ) (T : Versions ρ) : Attempt (Versions ρ) := T.put t T.nextId r

/-- `INSERT … ON CONFLICT DO NOTHING`; whether a row was inserted. -/
def insertOrIgnore (t : Nat) (r : ρ) (T : Versions ρ) : Attempt (Bool × Versions ρ) :=
  match T.insert t r with
  | .done T' => .done (true, T')
  | .refused => .done (false, T)
  | .waits => .waits

/-- `INSERT … ON CONFLICT (…) DO UPDATE SET f`, where `p` picks the rows that the
conflict target names. It updates the row also when the transaction did not see it
when the statement began. -/
def insertOrUpdate (t : Nat) (p : ρ → Bool) (f : ρ → ρ) (r : ρ) (T : Versions ρ) :
    Attempt (Versions ρ) :=
  match T.versions.find? fun v => decide (IsLive t v) && p v.row with
  | some v => (T.erase t fun w => p w.row).put t v.rowId (f v.row)
  | none =>
      -- a row that `p` names and nobody may write yet is waited for
      if ∀ v ∈ T.versions, p v.row = true → v.eraser = some t then T.insert t r else .waits

/-- The scan of `UPDATE` and `DELETE … WHERE p`: the rows the transaction sees when the
statement begins. -/
def scan (t : Nat) (p : ρ → Bool) (T : Versions ρ) : List Nat :=
  (T.versions.filter fun v => decide (Sees t v) && p v.row).map Version.rowId

/-- Another open transaction has erased a version of the row. -/
def Locked (t rowId : Nat) (T : Versions ρ) : Prop :=
  ∃ v ∈ T.versions, v.rowId = rowId ∧ v.eraser ≠ none ∧ v.eraser ≠ some t

instance {rowId : Nat} : Decidable (T.Locked t rowId) :=
  inferInstanceAs (Decidable
    (∃ v ∈ T.versions, v.rowId = rowId ∧ v.eraser ≠ none ∧ v.eraser ≠ some t))

/-- `DELETE … WHERE p` at one row of its scan: it waits for the row's lock and looks at
`p` again. -/
def deleteRow (t rowId : Nat) (p : ρ → Bool) (T : Versions ρ) : Attempt (Versions ρ) :=
  if T.Locked t rowId then .waits
  else .done (T.erase t fun v => decide (v.rowId = rowId) && p v.row)

/-- `UPDATE … SET f WHERE p` at one row of its scan; whether it was updated. -/
def updateRow (t rowId : Nat) (p : ρ → Bool) (f : ρ → ρ) (T : Versions ρ) :
    Attempt (Bool × Versions ρ) :=
  if T.Locked t rowId then .waits
  else
    match T.versions.find? fun v =>
        decide (IsLive t v) && (decide (v.rowId = rowId) && p v.row) with
    | some v =>
        ((T.erase t fun w => decide (w.rowId = rowId) && p w.row).put t rowId (f v.row)).map
          fun T' => (true, T')
    | none => .done (false, T)

/-! ## Ends of transactions -/

def commit (t : Nat) (T : Versions ρ) : Versions ρ where
  versions := (T.versions.filter fun v => decide (v.eraser ≠ some t)).map (Version.settle t)
  nextId := T.nextId
  fresh := by
    intro v hv
    obtain ⟨w, hw, rfl⟩ := List.mem_map.mp hv
    rw [settle_rowId]
    exact T.fresh w (List.mem_of_mem_filter hw)
  apart := by
    rw [List.pairwise_map]
    refine (T.apart.filter _).imp_of_mem ?_
    intro v w hv hw hapart hclash
    have hv := of_decide_eq_true (List.mem_filter.mp hv).2
    have hw := of_decide_eq_true (List.mem_filter.mp hw).2
    rw [settle_rowId, settle_rowId, settle_row, settle_row] at hclash
    exact (hapart hclash).imp (fun h => h.settle hv) fun h => h.settle hw

def rollback (t : Nat) (T : Versions ρ) : Versions ρ where
  versions := (T.versions.filter fun v => decide (v.writer ≠ some t)).map (Version.release t)
  nextId := T.nextId
  fresh := by
    intro v hv
    obtain ⟨w, hw, rfl⟩ := List.mem_map.mp hv
    rw [release_rowId]
    exact T.fresh w (List.mem_of_mem_filter hw)
  apart := by
    rw [List.pairwise_map]
    refine (T.apart.filter _).imp_of_mem ?_
    intro v w hv hw hapart hclash
    have hv := of_decide_eq_true (List.mem_filter.mp hv).2
    have hw := of_decide_eq_true (List.mem_filter.mp hw).2
    rw [release_rowId, release_rowId, release_row, release_row] at hclash
    exact (hapart hclash).imp (fun h => h.release hw) fun h => h.release hv

theorem mem_commit :
    v ∈ (T.commit t).versions ↔ ∃ w ∈ T.versions, w.eraser ≠ some t ∧ w.settle t = v := by
  simp [commit, and_assoc]

theorem mem_rollback :
    v ∈ (T.rollback t).versions ↔ ∃ w ∈ T.versions, w.writer ≠ some t ∧ w.release t = v := by
  simp [rollback, and_assoc]

/-- A commit leaves what the transaction saw. -/
theorem committed_commit : (T.commit t).committed = T.view t := by
  refine Table.ext ?_
  simp only [committed, commit, view, List.filter_map, List.map_map, List.filter_filter]
  have hrow : Version.row ∘ Version.settle t = (Version.row : Version ρ → ρ) :=
    funext fun v => settle_row
  rw [hrow]
  congr 1
  refine List.filter_congr fun v _ => ?_
  rw [Bool.eq_iff_iff]
  simp only [Function.comp_apply, Bool.and_eq_true, decide_eq_true_eq, settle_writer_eq_none]
  exact Iff.rfl

theorem committed_rollback : (T.rollback t).committed = T.committed := by
  refine Table.ext ?_
  simp only [committed, rollback, List.filter_map, List.map_map, List.filter_filter]
  have hrow : Version.row ∘ Version.release t = (Version.row : Version ρ → ρ) :=
    funext fun v => release_row
  rw [hrow]
  congr 1
  refine List.filter_congr fun v _ => ?_
  cases hwriter : v.writer with
  | none => simp [hwriter]
  | some u => simp [hwriter]

/-! ## What the statements of one transaction do -/

/-- From `T` to `T'` the transaction `t` has erased live versions and written rows in
`P`; nothing else has happened. -/
def WrittenBy (t : Nat) (P : ρ → Prop) (T T' : Versions ρ) : Prop :=
  ∀ v' ∈ T'.versions,
    (∃ v ∈ T.versions, v' = v ∨ IsLive t v ∧ v' = { v with eraser := some t }) ∨
      v'.writer = some t ∧ P v'.row

section WrittenBy

variable {P : ρ → Prop} {p : ρ → Bool} {f : ρ → ρ} {r : ρ} {rowId : Nat} {q : Version ρ → Bool}

theorem WrittenBy.refl : WrittenBy t P T T := fun v hv => Or.inl ⟨v, hv, Or.inl rfl⟩

theorem writtenBy_erase : WrittenBy t P T (T.erase t q) := by
  intro v' hv'
  obtain ⟨v, hv, rfl⟩ := List.mem_map.mp hv'
  refine Or.inl ⟨v, hv, ?_⟩
  unfold Version.erase
  split
  · rename_i hlive
    exact Or.inr ⟨hlive.1, rfl⟩
  · exact Or.inl rfl

theorem WrittenBy.put {T₁ : Versions ρ} (h : WrittenBy t P T T₁) (hP : P r)
    (hput : T₁.put t rowId r = .done T') : WrittenBy t P T T' := by
  intro v' hv'
  rw [put_eq_done hput] at hv'
  rcases List.mem_append.mp hv' with hv' | hv'
  · exact h v' hv'
  · rw [List.mem_singleton.mp hv']
    exact Or.inr ⟨rfl, hP⟩

/-- What `insertOrUpdate` leaves: one version of its own, in the place of the rows that
the conflict target names. -/
theorem insertOrUpdate_eq_done (h : T.insertOrUpdate t p f r = .done T') :
    ∃ w : Version ρ, w.writer = some t ∧ w.eraser = none ∧
      (w.row = r ∨ ∃ x, p x = true ∧ w.row = f x) ∧
      ∀ v', v' ∈ T'.versions ↔
        (∃ v ∈ T.versions, v.erase t (fun v => p v.row) = v') ∨ v' = w := by
  unfold insertOrUpdate at h
  split at h
  · rename_i v hfind
    have hp := (Bool.and_eq_true _ _ ▸ List.find?_some hfind : _ ∧ _).2
    refine ⟨⟨v.rowId, f v.row, some t, none⟩, rfl, rfl, Or.inr ⟨v.row, hp, rfl⟩, fun v' => ?_⟩
    rw [put_eq_done h, List.mem_append, List.mem_singleton]
    exact or_congr_left List.mem_map
  · rename_i hfind
    split at h
    · refine ⟨⟨T.nextId, r, some t, none⟩, rfl, rfl, Or.inl rfl, fun v' => ?_⟩
      rw [put_eq_done h, List.mem_append, List.mem_singleton]
      refine or_congr_left ⟨fun hv' => ⟨v', hv', if_neg fun hlive => ?_⟩, ?_⟩
      · have hnone := List.find?_eq_none.mp hfind v' hv'
        exact hnone (by simp [hlive.1, hlive.2])
      · rintro ⟨v, hv, rfl⟩
        have hnone := List.find?_eq_none.mp hfind v hv
        rw [Version.erase, if_neg fun hlive => hnone (by simp [hlive.1, hlive.2])]
        exact hv
    · cases h

theorem writtenBy_insertOrUpdate (hr : P r) (hf : ∀ x, p x = true → P (f x))
    (h : T.insertOrUpdate t p f r = .done T') : WrittenBy t P T T' := by
  obtain ⟨w, hwriter, _, hrow, hmem⟩ := insertOrUpdate_eq_done h
  intro v' hv'
  rcases (hmem v').mp hv' with ⟨v, hv, rfl⟩ | rfl
  · exact writtenBy_erase _ (List.mem_map_of_mem hv)
  · refine Or.inr ⟨hwriter, ?_⟩
    rcases hrow with hrow | ⟨x, hx, hrow⟩
    · rw [hrow]
      exact hr
    · rw [hrow]
      exact hf x hx

theorem writtenBy_deleteRow (h : T.deleteRow t rowId p = .done T') : WrittenBy t P T T' := by
  unfold deleteRow at h
  split at h
  · cases h
  · cases h
    exact writtenBy_erase

theorem writtenBy_updateRow {updated : Bool} (hf : ∀ x, p x = true → P (f x))
    (h : T.updateRow t rowId p f = .done (updated, T')) : WrittenBy t P T T' := by
  unfold updateRow at h
  split at h
  · cases h
  · split at h
    · rename_i v hfind
      obtain ⟨T₁, hput, hpair⟩ := Attempt.map_eq_done.mp h
      cases hpair
      have hp := (Bool.and_eq_true _ _ ▸ List.find?_some hfind : _ ∧ _).2
      exact writtenBy_erase.put (hf _ (Bool.and_eq_true _ _ ▸ hp : _ ∧ _).2) hput
    · cases h
      exact .refl

/-- Statements commit nothing. -/
theorem WrittenBy.committed (h : WrittenBy t P T T') (hr : r ∈ T'.committed) : r ∈ T.committed := by
  obtain ⟨v', hv', hwriter, rfl⟩ := mem_committed.mp hr
  rcases h v' hv' with ⟨v, hv, rfl | ⟨_, rfl⟩⟩ | ⟨hown, _⟩
  · exact mem_committed.mpr ⟨v', hv, hwriter, rfl⟩
  · exact mem_committed.mpr ⟨v, hv, hwriter, rfl⟩
  · rw [hwriter] at hown
    cases hown

/-- After a row's turn no committed version of it is left that `DELETE … WHERE p` was
to erase. -/
theorem erased_of_deleteRow (h : T.deleteRow t rowId p = .done T') (hv : v ∈ T'.versions)
    (hid : v.rowId = rowId) (hwriter : v.writer = none) (hp : p v.row = true) :
    v.eraser = some t := by
  unfold deleteRow at h
  split at h
  · cases h
  · rename_i hfree
    cases h
    obtain ⟨w, hw, rfl⟩ := List.mem_map.mp hv
    rw [erase_rowId] at hid
    rw [erase_writer] at hwriter
    rw [erase_row] at hp
    by_cases heraser : w.eraser = none
    · have hlive : IsLive t w := ⟨Or.inl hwriter, heraser⟩
      rw [Version.erase, if_pos ⟨hlive, by simp [hid, hp]⟩]
    · rw [erase_of_eraser heraser]
      by_contra hother
      exact hfree ⟨w, hw, hid, heraser, hother⟩

/-- What the scan of a statement finds. -/
theorem mem_scan : rowId ∈ T.scan t p ↔
    ∃ v ∈ T.versions, Sees t v ∧ p v.row = true ∧ v.rowId = rowId := by
  simp [scan, and_assoc]

end WrittenBy

end Versions

end Rel
