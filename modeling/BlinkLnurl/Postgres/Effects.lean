import BlinkLnurl.Postgres.Statements
import BlinkLnurl.Repository.AccountEffects

/-!
# What the statements of a transaction do

The changes write identifier rows under the name they are about (`Change.Writes`), and
`accounts` rows of Spark accounts (`AccountWrites`); a statement is one of the four
`Effect`s. All that a transaction knows while others run is derived from these.

What it knows of an account is `SeesSpark`: another transaction may replace the row it has
seen, but only by a row of a Spark account (`Replacing`).
-/

namespace BlinkLnurl

open Rel Conc

namespace Postgres

/-- The row is of this account and under this name. -/
def Name.Names (n : Name) (r : AccountIdentifier) : Prop :=
  r.accountId = n.accountId ∧ r.domain = n.domain ∧ r.identifier = n.identifier

/-! ## Changes -/

/-- The identifier rows that a change can write. -/
def Change.Writes : Change → AccountIdentifier → Prop
  | .upsertIdentifier accountId identifier _, r =>
      Name.Names ⟨accountId, identifier.domain, identifier.identifier⟩ r
  | .reassign a _, r => Name.Names ⟨a.destinationAccountId, a.domain, a.identifier⟩ r
  | _, _ => False

theorem Change.apply_identifiers {t : Nat} {db db' : Database} {c : Change} {result : c.Result}
    (h : c.apply t db = .done (result, db')) :
    Versions.WrittenBy t c.Writes db.accountIdentifiers db'.accountIdentifiers := by
  cases c with
  | insertStatementClaim | insertAccount | insertSparkAccount | upsertAccount
  | upsertSparkAccount =>
      obtain ⟨_, _, hpair⟩ := Attempt.map_eq_done.mp h
      cases hpair
      exact .refl
  | upsertIdentifier accountId identifier now =>
      obtain ⟨rows, hrows, hpair⟩ := Attempt.map_eq_done.mp h
      cases hpair
      refine Versions.writtenBy_insertOrUpdate ⟨rfl, rfl, rfl⟩ ?_ hrows
      intro r hr
      simp only [namedBy, Bool.and_eq_true, decide_eq_true_eq] at hr
      exact ⟨hr.1.1, hr.1.2, hr.2⟩
  | reassign a rowId =>
      obtain ⟨⟨updated, rows⟩, hrows, hpair⟩ := Attempt.map_eq_done.mp h
      cases hpair
      refine Versions.writtenBy_updateRow ?_ hrows
      intro r hr
      simp only [Reassignment.names, Bool.and_eq_true, decide_eq_true_eq] at hr
      exact ⟨rfl, hr.1.1, hr.1.2⟩
  | deleteOther n rowId =>
      obtain ⟨rows, hrows, hpair⟩ := Attempt.map_eq_done.mp h
      cases hpair
      exact Versions.writtenBy_deleteRow hrows

/-- What a change does to `accounts`: rows in `p` are replaced by the versions `news`, all
of Spark accounts. -/
structure AccountWrites (t : Nat) (p : Account → Bool) (news : List (Version Account))
    (T T' : Versions Account) : Prop where
  mem : ∀ v', v' ∈ T'.versions ↔
    (∃ v ∈ T.versions, v.erase t (fun v => p v.row) = v') ∨ v' ∈ news
  new : ∀ w ∈ news, w.writer = some t ∧ w.eraser = none ∧ w.row.provider = .spark
  again : ∀ a, p a = true → ∃ w ∈ news, w.row.accountId = a.accountId

/-- A change that names no row leaves those that are there. -/
theorem erase_nothing {t : Nat} {T : Versions Account} {v' : Version Account} :
    v' ∈ T.versions ↔ ∃ v ∈ T.versions, v.erase t (fun _ => false) = v' := by
  constructor
  · exact fun hv' => ⟨v', hv', Version.erase_of_not rfl⟩
  · rintro ⟨v, hv, rfl⟩
    rw [Version.erase_of_not rfl]
    exact hv

theorem AccountWrites.none {t : Nat} {T : Versions Account} :
    AccountWrites t (fun _ => false) [] T T where
  mem := fun v' => by
    rw [← erase_nothing, or_iff_left List.not_mem_nil]
  new := fun _ hw => absurd hw List.not_mem_nil
  again := fun _ hp => nomatch hp

theorem Change.upsertAccount_accounts {t : Nat} {db db' : Database} {accountId : String} {now : Int}
    {result : Unit} (h : (Change.upsertAccount accountId now).apply t db = .done (result, db')) :
    ∃ w : Version Account, w.row.accountId = accountId ∧
      AccountWrites t (fun a => a.accountId = accountId) [w] db.accounts db'.accounts := by
  obtain ⟨rows, hrows, hpair⟩ := Attempt.map_eq_done.mp h
  cases hpair
  obtain ⟨w, hwriter, heraser, hrow, hmem⟩ := Versions.insertOrUpdate_eq_done hrows
  have hw : w.row.accountId = accountId ∧ w.row.provider = .spark := by
    rcases hrow with hrow | ⟨x, hx, hrow⟩
    · rw [hrow]
      exact ⟨rfl, rfl⟩
    · rw [hrow]
      exact ⟨of_decide_eq_true hx, rfl⟩
  refine ⟨w, hw.1, fun v' => ?_, fun w' hw' => ?_, fun a ha => ?_⟩
  · rw [hmem, List.mem_singleton]
  · obtain rfl := List.mem_singleton.mp hw'
    exact ⟨hwriter, heraser, hw.2⟩
  · exact ⟨w, List.mem_singleton_self _, hw.1.trans (of_decide_eq_true ha).symm⟩

theorem Change.apply_accounts {t : Nat} {db db' : Database} {c : Change} {result : c.Result}
    (h : c.apply t db = .done (result, db')) :
    ∃ p news, AccountWrites t p news db.accounts db'.accounts ∧
      ∀ a, p a = true → ∃ now, c = .upsertAccount a.accountId now := by
  have unwritten : db'.accounts = db.accounts →
      ∃ p news, AccountWrites t p news db.accounts db'.accounts ∧
        ∀ a, p a = true → ∃ now, c = .upsertAccount a.accountId now := fun hsame =>
    ⟨fun _ => false, [], by rw [hsame]; exact .none, fun _ ha => nomatch ha⟩
  cases c with
  | insertAccount accountId now =>
      obtain ⟨rows, hrows, hpair⟩ := Attempt.map_eq_done.mp h
      cases hpair
      refine ⟨fun _ => false, [⟨db.accounts.nextId, ⟨accountId, .spark, now, now⟩, some t, none⟩],
        ⟨fun v' => ?_, fun w hw => ?_, fun a ha => nomatch ha⟩, fun a ha => nomatch ha⟩
      · show v' ∈ rows.versions ↔ _
        rw [Versions.put_eq_done hrows, List.mem_append]
        exact or_congr_left erase_nothing
      · rw [List.mem_singleton.mp hw]
        exact ⟨rfl, rfl, rfl⟩
  | upsertAccount accountId now =>
      obtain ⟨w, _, hwrites⟩ := Change.upsertAccount_accounts h
      refine ⟨_, _, hwrites, fun a ha => ⟨now, ?_⟩⟩
      rw [of_decide_eq_true ha]
  | insertStatementClaim | insertSparkAccount | upsertSparkAccount | upsertIdentifier | reassign
  | deleteOther =>
      obtain ⟨_, _, hpair⟩ := Attempt.map_eq_done.mp h
      cases hpair
      exact unwritten rfl

/-! ## Statements -/

theorem execChange_cases {t : Nat} {c : Change} {fails : Bool} {db db' : Database}
    {r : Except RepositoryError c.Result} (h : execChange t c fails db = some (r, db')) :
    db' = db ∧ r = .error .general ∨
      ∃ result, r = .ok result ∧ c.apply t db = .done (result, db') := by
  unfold execChange at h
  split at h
  · cases h
    exact Or.inl ⟨rfl, rfl⟩
  · split at h
    · rename_i result db'' happly
      cases h
      exact Or.inr ⟨result, rfl, happly⟩
    · cases h
      exact Or.inl ⟨rfl, rfl⟩
    · cases h

theorem execScan_cases {t : Nat} {s : Scan} {order : Option (List Nat)} {db db' : Database}
    {r : Except RepositoryError (List Nat)} (h : execScan t s order db = some (r, db')) :
    db' = db ∧ ∀ rows, r = .ok rows → rows.Perm (s.rows t db) := by
  unfold execScan at h
  split at h
  · cases h
    exact ⟨rfl, fun _ hrows => nomatch hrows⟩
  · split at h
    · rename_i rows hperm
      cases h
      refine ⟨rfl, fun rows' hrows => ?_⟩
      cases hrows
      exact hperm
    · cases h

/-- What a statement of the transaction `t` can do. -/
inductive Effect (t : Nat) (db : Database) : StatementEvent → Database → Prop
  | same {ev} : Effect t db ev db
  | change {c r result db'} : Change.apply t db c = .done (result, db') →
      Effect t db ⟨t, .change c, r⟩ db'
  | commit {committing} : committing.given = given t db →
      Effect t db ⟨t, .commit, committing⟩ (db.commit t)
  | rollback {c r} : c = .commit ∨ c = .rollback → Effect t db ⟨t, c, r⟩ (db.rollback t)

theorem exec_effect {t : Nat} {c : Statement} {ch : Choice c} {db db' : Database} {r : Reply c}
    (h : exec t c ch db = some (r, db')) : Effect t db ⟨t, c, r⟩ db' := by
  cases c with
  | now =>
      cases h
      exact .same
  | generateAccountId =>
      cases h
      exact .same
  | begin =>
      cases h
      exact .same
  | query q =>
      cases h
      exact .same
  | change c =>
      rcases execChange_cases h with ⟨rfl, _⟩ | ⟨result, _, happly⟩
      · exact .same
      · exact .change happly
  | scan s =>
      obtain ⟨rfl, _⟩ := execScan_cases h
      exact .same
  | commit =>
      cases ch with
      | heard =>
          cases h
          exact .commit rfl
      | unheard =>
          cases h
          exact .commit rfl
      | failed =>
          cases h
          exact .rollback (Or.inl rfl)
  | rollback =>
      cases h
      exact .rollback (Or.inr rfl)

/-! ## Spark accounts -/

/-- The transaction sees the account, as a Spark account. -/
def SeesSpark (t : Nat) (accountId : String) (db : Database) : Prop :=
  ∃ v ∈ db.accounts.versions, Version.Sees t v ∧ v.row.accountId = accountId ∧
    v.row.provider = .spark

/-- An open transaction that has erased an account has replaced it by a Spark account. -/
def Replacing (db : Database) : Prop :=
  ∀ v ∈ db.accounts.versions, ∀ j, v.eraser = some j →
    ∃ w ∈ db.accounts.versions, w.writer = some j ∧ w.eraser = none ∧
      w.row.accountId = v.row.accountId ∧ w.row.provider = .spark

section SparkAccounts

variable {t i : Nat} {accountId : String} {db db' : Database} {c : Change} {result : c.Result}

theorem SeesSpark.hasProvider (h : SeesSpark t accountId db) :
    (db.view t).HasProvider accountId .spark := by
  obtain ⟨v, hv, hsees, hid, hspark⟩ := h
  exact ⟨v.row, Versions.mem_view.mpr ⟨v, hv, hsees, rfl⟩, hid, hspark⟩

theorem SeesSpark.change (h : SeesSpark t accountId db)
    (happly : c.apply i db = .done (result, db')) : SeesSpark t accountId db' := by
  obtain ⟨p, news, writes, _⟩ := Change.apply_accounts happly
  obtain ⟨v, hv, hsees, hid, hspark⟩ := h
  by_cases hlost : t = i ∧ p v.row = true
  · obtain ⟨rfl, hp⟩ := hlost
    obtain ⟨w, hw, hwid⟩ := writes.again _ hp
    obtain ⟨hwriter, heraser, hwspark⟩ := writes.new w hw
    exact ⟨w, (writes.mem w).mpr (Or.inr hw), ⟨Or.inr hwriter, by rw [heraser]; exact nofun⟩,
      hwid.trans hid, hwspark⟩
  · -- erased by another transaction it still shows
    refine ⟨_, (writes.mem _).mpr (Or.inl ⟨v, hv, rfl⟩), ⟨?_, ?_⟩, ?_, ?_⟩
    · rw [Version.erase_writer]
      exact hsees.1
    · unfold Version.erase
      split
      · rename_i herased
        intro hi
        exact hlost ⟨(Option.some.inj hi).symm, herased.2⟩
      · exact hsees.2
    · rw [Version.erase_row]
      exact hid
    · rw [Version.erase_row]
      exact hspark

theorem SeesSpark.commit (hne : t ≠ i) (hreplacing : Replacing db) (h : SeesSpark t accountId db) :
    SeesSpark t accountId (db.commit i) := by
  obtain ⟨v, hv, hsees, hid, hspark⟩ := h
  by_cases hlost : v.eraser = some i
  · obtain ⟨w, hw, hwriter, heraser, hwid, hwspark⟩ := hreplacing v hv i hlost
    refine ⟨w.settle i, Versions.mem_commit.mpr ⟨w, hw, by rw [heraser]; exact nofun, rfl⟩,
      ⟨Or.inl (Version.settle_writer_eq_none.mpr (Or.inr hwriter)), ?_⟩, ?_, ?_⟩
    · rw [Version.settle_eraser, heraser]
      exact nofun
    · rw [Version.settle_row, hwid, hid]
    · rw [Version.settle_row]
      exact hwspark
  · refine ⟨v.settle i, Versions.mem_commit.mpr ⟨v, hv, hlost, rfl⟩, ?_, ?_, ?_⟩
    · have hother : v.writer ≠ some i := by
        rcases hsees.1 with hnone | hown
        · rw [hnone]
          exact nofun
        · rw [hown]
          exact fun h => hne (Option.some.inj h)
      rw [Version.settle, if_neg hother]
      exact hsees
    · rw [Version.settle_row]
      exact hid
    · rw [Version.settle_row]
      exact hspark

theorem SeesSpark.rollback (hne : t ≠ i) (h : SeesSpark t accountId db) :
    SeesSpark t accountId (db.rollback i) := by
  obtain ⟨v, hv, hsees, hid, hspark⟩ := h
  have hother : v.writer ≠ some i := by
    rcases hsees.1 with hnone | hown
    · rw [hnone]
      exact nofun
    · rw [hown]
      exact fun h => hne (Option.some.inj h)
  refine ⟨v.release i, Versions.mem_rollback.mpr ⟨v, hv, hother, rfl⟩, ⟨?_, ?_⟩, ?_, ?_⟩
  · rw [Version.release_writer]
    exact hsees.1
  · unfold Version.release
    split
    · exact nofun
    · exact hsees.2
  · rw [Version.release_row]
    exact hid
  · rw [Version.release_row]
    exact hspark

theorem Replacing.change (h : Replacing db) (happly : c.apply i db = .done (result, db')) :
    Replacing db' := by
  obtain ⟨p, news, writes, _⟩ := Change.apply_accounts happly
  intro v' hv' j hj
  rcases (writes.mem v').mp hv' with ⟨v, hv, rfl⟩ | hnew
  · rw [Version.erase_row]
    -- the row is named by this change, or its replacement is
    have again : ∀ a, p a = true → a.accountId = v.row.accountId → j = i →
        ∃ w ∈ db'.accounts.versions, w.writer = some j ∧ w.eraser = none ∧
          w.row.accountId = v.row.accountId ∧ w.row.provider = .spark := by
      rintro a hp hid rfl
      obtain ⟨w, hw, hwid⟩ := writes.again a hp
      obtain ⟨hwriter, heraser, hwspark⟩ := writes.new w hw
      exact ⟨w, (writes.mem w).mpr (Or.inr hw), hwriter, heraser, hwid.trans hid, hwspark⟩
    by_cases herased : Version.IsLive i v ∧ p v.row = true
    · rw [Version.erase, if_pos herased] at hj
      exact again v.row herased.2 rfl (Option.some.inj hj).symm
    · rw [Version.erase, if_neg herased] at hj
      obtain ⟨w, hw, hwriter, heraser, hwid, hwspark⟩ := h v hv j hj
      by_cases hwerased : Version.IsLive i w ∧ p w.row = true
      · refine again w.row hwerased.2 hwid ?_
        rcases hwerased.1.1 with hnone | hown
        · rw [hwriter] at hnone
          cases hnone
        · exact Option.some.inj (hwriter.symm.trans hown)
      · refine ⟨w, (writes.mem w).mpr (Or.inl ⟨w, hw, if_neg hwerased⟩), hwriter, heraser, hwid,
          hwspark⟩
  · rw [(writes.new v' hnew).2.1] at hj
    cases hj

theorem Replacing.commit (h : Replacing db) : Replacing (db.commit i) := by
  intro v' hv' j hj
  obtain ⟨v, hv, hkept, rfl⟩ := Versions.mem_commit.mp hv'
  rw [Version.settle_eraser] at hj
  obtain ⟨w, hw, hwriter, heraser, hwid, hwspark⟩ := h v hv j hj
  have hother : w.writer ≠ some i := by
    rw [hwriter, ← hj]
    exact hkept
  refine ⟨w, Versions.mem_commit.mpr ⟨w, hw, by rw [heraser]; exact nofun, if_neg hother⟩,
    hwriter, heraser, ?_, hwspark⟩
  rw [Version.settle_row, hwid]

theorem Replacing.rollback (h : Replacing db) : Replacing (db.rollback i) := by
  intro v' hv' j hj
  obtain ⟨v, hv, _, rfl⟩ := Versions.mem_rollback.mp hv'
  unfold Version.release at hj
  split at hj
  · cases hj
  · rename_i hother
    obtain ⟨w, hw, hwriter, heraser, hwid, hwspark⟩ := h v hv j hj
    have hwother : w.writer ≠ some i := by
      rw [hwriter, ← hj]
      exact hother
    refine ⟨w, Versions.mem_rollback.mpr ⟨w, hw, hwother, if_neg ?_⟩, hwriter, heraser, ?_,
      hwspark⟩
    · rw [heraser]
      exact nofun
    · rw [Version.release_row, hwid]

end SparkAccounts

end Postgres

end BlinkLnurl
