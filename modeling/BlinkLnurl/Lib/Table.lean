import Mathlib.Data.List.Basic
import Mathlib.Data.List.Pairwise

/-!
# Tables with unique constraints

A table is a list of rows no two of which *clash*: the clash relation of the
row type is the disjunction of its unique indexes. The constraint is a field
of the table, so a statement that would break it cannot build its result:

* `insert` refuses a row that clashes with a stored one (`none`);
* `modify` takes the evidence that the update leaves the key columns alone,
  `modify?` checks the result instead;
* `upsert` is `INSERT … ON CONFLICT (key) DO UPDATE` for a row type whose only
  unique index is its key; `insertOrUpdate` is the statement in general.

Membership after each statement is characterised by one lemma per statement
(`mem_insert`, `mem_delete`, `mem_modify`, `mem_upsert`), lookup by key by one
more (`get_upsert`, `get_modify`).
-/

namespace Rel

universe u v

/-- The unique indexes of a row type, as the relation "these two rows may not
both be stored". -/
class Schema (ρ : Type u) where
  clash : ρ → ρ → Prop
  clash_symm : ∀ {a b : ρ}, clash a b → clash b a
  [decidable : DecidableRel clash]

instance (ρ : Type u) [S : Schema ρ] : DecidableRel (S.clash) := S.decidable

/-- A row type whose only unique index is the primary key `key`. -/
class Keyed (ρ : Type u) (κ : outParam (Type v)) where
  key : ρ → κ

instance Keyed.schema {ρ : Type u} {κ : Type v} [Keyed ρ κ] [DecidableEq κ] : Schema ρ where
  clash a b := Keyed.key a = Keyed.key b
  clash_symm h := h.symm
  decidable := fun a b => inferInstanceAs (Decidable (Keyed.key a = Keyed.key b))

/-- Rows that satisfy the unique constraints of their schema. -/
@[ext] structure Table (ρ : Type u) [Schema ρ] where
  rows : List ρ
  unique : rows.Pairwise fun a b => ¬ Schema.clash a b

namespace Table

variable {ρ : Type u} [Schema ρ]

instance : Membership ρ (Table ρ) := ⟨fun t r => r ∈ t.rows⟩

theorem mem_rows {t : Table ρ} {r : ρ} : r ∈ t.rows ↔ r ∈ t := Iff.rfl

instance [DecidableEq ρ] : DecidableEq (Table ρ) := fun s t =>
  decidable_of_iff (s.rows = t.rows) ⟨Table.ext, fun h => h ▸ rfl⟩

/-- The table of a fresh database. -/
def empty : Table ρ := ⟨[], .nil⟩

instance : Inhabited (Table ρ) := ⟨empty⟩

@[simp] theorem not_mem_empty (r : ρ) : r ∉ (empty : Table ρ) := List.not_mem_nil

/-- Two stored rows that clash are the same row. -/
theorem eq_of_clash {t : Table ρ} {a b : ρ}
    (ha : a ∈ t) (hb : b ∈ t) (h : Schema.clash a b) : a = b := by
  by_contra hne
  have hsymm : Std.Symm fun a b : ρ => ¬ Schema.clash a b :=
    ⟨fun _ _ hab hba => hab (Schema.clash_symm hba)⟩
  exact t.unique.forall ha hb hne h

/-! ## Queries -/

/-- `SELECT … WHERE p LIMIT 1`. -/
def find? (p : ρ → Bool) (t : Table ρ) : Option ρ := t.rows.find? p

/-- `SELECT … WHERE p`. -/
def select (p : ρ → Bool) (t : Table ρ) : List ρ := t.rows.filter p

/-- `SELECT EXISTS (… WHERE p)`. -/
def any (p : ρ → Bool) (t : Table ρ) : Bool := t.rows.any p

theorem mem_of_find? {p : ρ → Bool} {t : Table ρ} {r : ρ} (h : t.find? p = some r) :
    r ∈ t ∧ p r = true :=
  ⟨List.mem_of_find?_eq_some h, List.find?_some h⟩

theorem find?_eq_none {p : ρ → Bool} {t : Table ρ} :
    t.find? p = none ↔ ∀ r ∈ t, p r ≠ true := by
  simp [find?, List.find?_eq_none, mem_rows]

/-- A query that at most one stored row can satisfy finds that row. -/
theorem find?_eq_some_of_unique {p : ρ → Bool} {t : Table ρ} {r : ρ} (hr : r ∈ t)
    (hp : p r = true) (huniq : ∀ r' ∈ t, p r' = true → r' = r) : t.find? p = some r := by
  cases hf : t.find? p with
  | none => exact absurd hp (find?_eq_none.mp hf r hr)
  | some r' =>
      obtain ⟨hr', hp'⟩ := mem_of_find? hf
      rw [huniq r' hr' hp']

@[simp] theorem mem_select {p : ρ → Bool} {t : Table ρ} {r : ρ} :
    r ∈ t.select p ↔ r ∈ t ∧ p r = true := List.mem_filter

theorem any_eq_true {p : ρ → Bool} {t : Table ρ} :
    t.any p = true ↔ ∃ r ∈ t, p r = true := by
  simp [any, mem_rows]

/-! ## Statements -/

/-- `INSERT`: refused when a unique index is violated. -/
def insert (r : ρ) (t : Table ρ) : Option (Table ρ) :=
  if h : ∃ x ∈ t.rows, Schema.clash x r then none
  else some ⟨t.rows ++ [r], by
    rw [List.pairwise_append]
    refine ⟨t.unique, List.pairwise_singleton _ _, ?_⟩
    intro a ha b hb hclash
    rw [List.mem_singleton.mp hb] at hclash
    exact h ⟨a, ha, hclash⟩⟩

theorem insert_eq_some {r : ρ} {t t' : Table ρ} (h : t.insert r = some t') :
    t'.rows = t.rows ++ [r] ∧ ∀ x ∈ t, ¬ Schema.clash x r := by
  unfold insert at h
  split at h
  · cases h
  · rename_i hno
    cases h
    exact ⟨rfl, fun x hx hc => hno ⟨x, hx, hc⟩⟩

theorem insert_of_no_clash {r : ρ} {t : Table ρ} (h : ∀ x ∈ t, ¬ Schema.clash x r) :
    ∃ t', t.insert r = some t' := by
  have hno : ¬ ∃ x ∈ t.rows, Schema.clash x r := fun ⟨x, hx, hclash⟩ => h x hx hclash
  unfold insert
  rw [dif_neg hno]
  exact ⟨_, rfl⟩

theorem mem_insert {r x : ρ} {t t' : Table ρ} (h : t.insert r = some t') :
    x ∈ t' ↔ x ∈ t ∨ x = r := by
  rw [← mem_rows, (insert_eq_some h).1, List.mem_append, List.mem_singleton, mem_rows]

/-- `DELETE … WHERE p`. -/
def delete (p : ρ → Bool) (t : Table ρ) : Table ρ where
  rows := t.rows.filter fun r => !p r
  unique := t.unique.filter _

@[simp] theorem mem_delete {p : ρ → Bool} {t : Table ρ} {r : ρ} :
    r ∈ t.delete p ↔ r ∈ t ∧ p r = false := by
  simp [← mem_rows, delete]

/-- The number of rows `DELETE … WHERE p` reports. -/
def affected (p : ρ → Bool) (t : Table ρ) : Nat := t.rows.countP p

theorem affected_eq_zero {p : ρ → Bool} {t : Table ρ} :
    t.affected p = 0 ↔ ∀ r ∈ t, p r ≠ true := by
  simp only [affected, List.countP_eq_zero, mem_rows]

/-- The one row a statement can name. -/
theorem affected_eq_one {p : ρ → Bool} {t : Table ρ} {r : ρ} (hr : r ∈ t) (hp : p r = true)
    (hclash : ∀ a b, p a = true → p b = true → Schema.clash a b) : t.affected p = 1 := by
  obtain ⟨front, back, hrows⟩ := List.append_of_mem (mem_rows.mpr hr)
  have hunique := t.unique
  unfold affected
  rw [hrows] at hunique ⊢
  obtain ⟨_, hback, hfront⟩ := List.pairwise_append.mp hunique
  have hfront : front.countP p = 0 := List.countP_eq_zero.mpr fun a ha hpa =>
    hfront a ha r List.mem_cons_self (hclash a r hpa hp)
  have hback : back.countP p = 0 := List.countP_eq_zero.mpr fun a ha hpa =>
    (List.pairwise_cons.mp hback).1 a ha (hclash r a hp hpa)
  rw [List.countP_append, List.countP_cons_of_pos hp, hfront, hback]

/-- The update leaves the columns of every unique index alone. -/
def KeepsKeys (f : ρ → ρ) : Prop := ∀ a b : ρ, Schema.clash (f a) (f b) → Schema.clash a b

/-- An update that is only applied where it keeps the keys. -/
def onRow (p : ρ → Bool) (f : ρ → ρ) (r : ρ) : ρ := if p r then f r else r

/-- `UPDATE … SET f WHERE p`, for an update of non-key columns. -/
def modify (p : ρ → Bool) (f : ρ → ρ) (hf : KeepsKeys (onRow p f)) (t : Table ρ) : Table ρ where
  rows := t.rows.map (onRow p f)
  unique := by
    rw [List.pairwise_map]
    exact t.unique.imp fun hab hc => hab (hf _ _ hc)

theorem mem_modify {p : ρ → Bool} {f : ρ → ρ} {hf : KeepsKeys (onRow p f)} {t : Table ρ} {x : ρ} :
    x ∈ t.modify p f hf ↔ ∃ r ∈ t, onRow p f r = x := by
  rw [← mem_rows]
  simp [modify, mem_rows]

/-- An update that finds no row. -/
theorem modify_eq_self {p : ρ → Bool} {f : ρ → ρ} {hf : KeepsKeys (onRow p f)} {t : Table ρ}
    (h : ∀ r ∈ t, p r ≠ true) : t.modify p f hf = t := by
  refine Table.ext ?_
  show t.rows.map (onRow p f) = t.rows
  have hsame : ∀ r ∈ t.rows, onRow p f r = id r := fun r hr => if_neg (h r hr)
  rw [List.map_congr_left hsame, List.map_id]

/-- `UPDATE … SET f WHERE p` on key columns: refused when the result violates
a unique index. -/
def modify? (p : ρ → Bool) (f : ρ → ρ) (t : Table ρ) : Option (Table ρ) :=
  if h : (t.rows.map (onRow p f)).Pairwise (fun a b => ¬ Schema.clash a b) then
    some ⟨t.rows.map (onRow p f), h⟩
  else none

theorem mem_modify? {p : ρ → Bool} {f : ρ → ρ} {t t' : Table ρ} {x : ρ}
    (h : t.modify? p f = some t') : x ∈ t' ↔ ∃ r ∈ t, onRow p f r = x := by
  unfold modify? at h
  split at h
  · cases h
    rw [← mem_rows]
    simp [mem_rows]
  · cases h

/-- `INSERT … ON CONFLICT (…) DO UPDATE SET f`, where `p` picks the stored row
the conflict target names. Another violated index refuses the statement. -/
def insertOrUpdate (p : ρ → Bool) (f : ρ → ρ) (r : ρ) (t : Table ρ) : Option (Table ρ) :=
  if t.any p then t.modify? p f else t.insert r

theorem mem_insertOrUpdate {p : ρ → Bool} {f : ρ → ρ} {r x : ρ} {t t' : Table ρ}
    (h : t.insertOrUpdate p f r = some t') :
    x ∈ t' ↔ (∃ y ∈ t, onRow p f y = x) ∨ (x = r ∧ ∀ y ∈ t, p y ≠ true) := by
  unfold insertOrUpdate at h
  split at h
  · rename_i hany
    obtain ⟨y, hy, hp⟩ := any_eq_true.mp hany
    rw [mem_modify? h]
    exact ⟨Or.inl, fun hx => hx.elim id fun hno => absurd hp (hno.2 y hy)⟩
  · rename_i hany
    have hno : ∀ y ∈ t, p y ≠ true := fun y hy hp => hany (any_eq_true.mpr ⟨y, hy, hp⟩)
    have hid : ∀ y ∈ t, onRow p f y = y := fun y hy => if_neg (hno y hy)
    rw [mem_insert h]
    constructor
    · rintro (hx | hx)
      · exact Or.inl ⟨x, hx, hid x hx⟩
      · exact Or.inr ⟨hx, hno⟩
    · rintro (⟨y, hy, rfl⟩ | ⟨hx, _⟩)
      · exact Or.inl ((hid y hy).symm ▸ hy)
      · exact Or.inr hx

end Table

/-! ## Tables with a primary key only -/

namespace Table

open Keyed

variable {ρ : Type u} {κ : Type v} [Keyed ρ κ] [DecidableEq κ]

theorem eq_of_key {t : Table ρ} {a b : ρ} (ha : a ∈ t) (hb : b ∈ t) (h : key a = key b) :
    a = b :=
  eq_of_clash ha hb h

/-- The row stored under the key `k`. -/
def get (k : κ) (t : Table ρ) : Option ρ := t.find? fun r => decide (key r = k)

theorem get_eq_some {k : κ} {t : Table ρ} {r : ρ} : t.get k = some r ↔ r ∈ t ∧ key r = k := by
  constructor
  · intro h
    obtain ⟨hr, hk⟩ := mem_of_find? h
    exact ⟨hr, by simpa using hk⟩
  · rintro ⟨hr, hk⟩
    refine find?_eq_some_of_unique hr (by simpa using hk) fun r' hr' hk' => ?_
    exact eq_of_key hr' hr ((of_decide_eq_true hk').trans hk.symm)

theorem get_eq_none {k : κ} {t : Table ρ} : t.get k = none ↔ ∀ r ∈ t, key r ≠ k := by
  simp [get, find?_eq_none]

@[simp] theorem get_empty (k : κ) : (empty : Table ρ).get k = none := rfl

theorem key_of_get {k : κ} {t : Table ρ} {r : ρ} (h : t.get k = some r) : key r = k :=
  (get_eq_some.mp h).2

/-- Two tables that hold the same rows answer every lookup alike. -/
theorem get_congr {t t' : Table ρ} {k : κ} (h : ∀ r : ρ, key r = k → (r ∈ t ↔ r ∈ t')) :
    t.get k = t'.get k := by
  cases hg : t.get k with
  | none =>
      rw [get_eq_none] at hg
      exact (get_eq_none.mpr fun r hr hk => hg r ((h r hk).mpr hr) hk).symm
  | some r =>
      obtain ⟨hr, hk⟩ := get_eq_some.mp hg
      exact (get_eq_some.mpr ⟨(h r hk).mp hr, hk⟩).symm

/-- An update that keeps the key keeps the constraint. -/
theorem keepsKeys_of_key {p : ρ → Bool} {f : ρ → ρ} (h : ∀ r : ρ, key (f r) = key r) :
    KeepsKeys (onRow p f) := by
  have hkey : ∀ r : ρ, key (onRow p f r) = key r := by
    intro r
    unfold onRow
    split
    · exact h r
    · rfl
  intro a b hc
  have hc' : key (onRow p f a) = key (onRow p f b) := hc
  rwa [hkey, hkey] at hc'

/-- `UPDATE … SET f WHERE p` for a table with a primary key that `f` keeps. -/
def update (p : ρ → Bool) (f : ρ → ρ) (hf : ∀ r : ρ, key (f r) = key r) (t : Table ρ) : Table ρ :=
  t.modify p f (keepsKeys_of_key hf)

theorem mem_update {p : ρ → Bool} {f : ρ → ρ} {hf : ∀ r : ρ, key (f r) = key r} {t : Table ρ}
    {x : ρ} : x ∈ t.update p f hf ↔ ∃ r ∈ t, onRow p f r = x := mem_modify

/-- A lookup after an update finds the updated row. -/
theorem get_update {p : ρ → Bool} {f : ρ → ρ} {hf : ∀ r : ρ, key (f r) = key r} {t : Table ρ}
    {k : κ} : (t.update p f hf).get k = (t.get k).map (onRow p f) := by
  have hkey : ∀ r : ρ, key (onRow p f r) = key r := by
    intro r
    unfold onRow
    split
    · exact hf r
    · rfl
  cases hg : t.get k with
  | none =>
      refine get_eq_none.mpr fun x hx hk => ?_
      obtain ⟨r, hr, rfl⟩ := mem_update.mp hx
      exact get_eq_none.mp hg r hr ((hkey r).symm.trans hk)
  | some r =>
      obtain ⟨hr, hk⟩ := get_eq_some.mp hg
      exact get_eq_some.mpr ⟨mem_update.mpr ⟨r, hr, rfl⟩, (hkey r).trans hk⟩

/-- A lookup after a delete finds the row unless it was deleted. -/
theorem get_delete {p : ρ → Bool} {t : Table ρ} {k : κ} :
    (t.delete p).get k = (t.get k).filter fun r => !p r := by
  cases hg : t.get k with
  | none =>
      refine get_eq_none.mpr fun x hx => ?_
      exact get_eq_none.mp hg x (mem_delete.mp hx).1
  | some r =>
      obtain ⟨hr, hk⟩ := get_eq_some.mp hg
      by_cases hp : p r = true
      · rw [Option.filter_some, if_neg (by simp [hp])]
        refine get_eq_none.mpr fun x hx hkx => ?_
        obtain ⟨hx, hpx⟩ := mem_delete.mp hx
        rw [eq_of_key hx hr (hkx.trans hk.symm), hp] at hpx
        exact Bool.noConfusion hpx
      · rw [Option.filter_some, if_pos (by simp [hp])]
        exact get_eq_some.mpr ⟨mem_delete.mpr ⟨hr, by simpa using hp⟩, hk⟩

/-- `INSERT … ON CONFLICT (key) DO UPDATE SET f`. -/
def upsert (r : ρ) (f : ρ → ρ) (hf : ∀ x : ρ, key (f x) = key x) (t : Table ρ) : Table ρ :=
  if h : ∃ x ∈ t.rows, key x = key r then t.update (fun x => decide (key x = key r)) f hf
  else ⟨t.rows ++ [r], by
    rw [List.pairwise_append]
    refine ⟨t.unique, List.pairwise_singleton _ _, ?_⟩
    intro a ha b hb hclash
    rw [List.mem_singleton.mp hb] at hclash
    exact h ⟨a, ha, hclash⟩⟩

theorem mem_upsert {r x : ρ} {f : ρ → ρ} {hf : ∀ x : ρ, key (f x) = key x} {t : Table ρ} :
    x ∈ t.upsert r f hf ↔ (∃ y ∈ t, onRow (fun y => decide (key y = key r)) f y = x) ∨
      (x = r ∧ ∀ y ∈ t, key y ≠ key r) := by
  unfold upsert
  split
  · rename_i h
    obtain ⟨y, hy, hk⟩ := h
    rw [mem_update]
    exact ⟨Or.inl, fun hx => hx.elim id fun hno => absurd hk (hno.2 y hy)⟩
  · rename_i h
    have hno : ∀ y ∈ t, key y ≠ key r := fun y hy hk => h ⟨y, hy, hk⟩
    have hid : ∀ y ∈ t, onRow (fun y => decide (key y = key r)) f y = y :=
      fun y hy => if_neg (by simpa using hno y hy)
    rw [← mem_rows, List.mem_append, List.mem_singleton, mem_rows]
    constructor
    · rintro (hx | hx)
      · exact Or.inl ⟨x, hx, hid x hx⟩
      · exact Or.inr ⟨hx, hno⟩
    · rintro (⟨y, hy, rfl⟩ | ⟨hx, _⟩)
      · exact Or.inl ((hid y hy).symm ▸ hy)
      · exact Or.inr hx

/-- The row an upsert leaves under its own key: the updated old row, or the
new one. -/
theorem get_upsert_self {r : ρ} {f : ρ → ρ} {hf : ∀ x : ρ, key (f x) = key x} {t : Table ρ} :
    (t.upsert r f hf).get (key r) = some ((t.get (key r)).elim r f) := by
  unfold upsert
  split
  · rename_i h
    obtain ⟨x, hx, hk⟩ := h
    have hg : t.get (key r) = some x := get_eq_some.mpr ⟨hx, hk⟩
    rw [get_update, hg]
    simp [onRow, hk]
  · rename_i h
    have hg : t.get (key r) = none := get_eq_none.mpr fun x hx hk => h ⟨x, hx, hk⟩
    rw [hg]
    exact get_eq_some.mpr ⟨List.mem_append_right _ (List.mem_singleton_self _), rfl⟩

/-- An upsert leaves the rows under other keys alone. -/
theorem get_upsert_ne {r : ρ} {f : ρ → ρ} {hf : ∀ x : ρ, key (f x) = key x} {t : Table ρ} {k : κ}
    (hne : k ≠ key r) : (t.upsert r f hf).get k = t.get k := by
  unfold upsert
  split
  · rw [get_update]
    cases hg : t.get k with
    | none => rfl
    | some x =>
        have hx : key x ≠ key r := by rw [key_of_get hg]; exact hne
        simp [onRow, hx]
  · refine get_congr fun x hk => ?_
    rw [← mem_rows, List.mem_append, List.mem_singleton, mem_rows]
    constructor
    · rintro (hx | rfl)
      · exact hx
      · exact absurd hk.symm hne
    · exact Or.inl

theorem get_upsert {r : ρ} {f : ρ → ρ} {hf : ∀ x : ρ, key (f x) = key x} {t : Table ρ} {k : κ} :
    (t.upsert r f hf).get k = if k = key r then some ((t.get k).elim r f) else t.get k := by
  split
  · rename_i h
    subst h
    exact get_upsert_self
  · exact get_upsert_ne ‹_›

/-- An upsert of a stored key is an update. -/
theorem upsert_of_get {r old : ρ} {f : ρ → ρ} {hf : ∀ x : ρ, key (f x) = key x} {t : Table ρ}
    (hget : t.get (key r) = some old) :
    t.upsert r f hf = t.update (fun x => decide (key x = key r)) f hf :=
  dif_pos ⟨old, get_eq_some.mp hget⟩

/-- Two upserts of a stored key that update its row alike. -/
theorem upsert_congr {r r' : ρ} {f f' : ρ → ρ} {hf : ∀ x : ρ, key (f x) = key x}
    {hf' : ∀ x : ρ, key (f' x) = key x} {t : Table ρ} {old : ρ} (hget : t.get (key r) = some old)
    (hkey : key r' = key r) (hold : f' old = f old) : t.upsert r' f' hf' = t.upsert r f hf := by
  obtain ⟨hmem, hk⟩ := get_eq_some.mp hget
  have hget' : t.get (key r') = some old := by
    rw [hkey]
    exact hget
  rw [upsert_of_get hget, upsert_of_get hget']
  refine Table.ext (List.map_congr_left fun x hx => ?_)
  unfold onRow
  rw [hkey]
  by_cases hx' : key x = key r
  · rw [if_pos (decide_eq_true hx'), if_pos (decide_eq_true hx'),
      eq_of_key hx hmem (hx'.trans hk.symm), hold]
  · rw [if_neg (by simpa using hx'), if_neg (by simpa using hx')]

/-- A column that the update sets to its new value. -/
theorem map_get_upsert {β : Type*} {r : ρ} {f : ρ → ρ} {hf : ∀ x : ρ, key (f x) = key x}
    {t : Table ρ} {k : κ} {g : ρ → β} (hg : ∀ x, g (f x) = g r) :
    ((t.upsert r f hf).get k).map g = if k = key r then some (g r) else (t.get k).map g := by
  rw [get_upsert]
  by_cases hk : k = key r
  · rw [if_pos hk, if_pos hk]
    cases t.get k with
    | none => rfl
    | some x => exact congrArg some (hg x)
  · rw [if_neg hk, if_neg hk]

end Table

end Rel
