import BlinkLnurl.Postgres.Effects

/-!
# What a `DELETE` of other usernames leaves

`upsert_spark_registration` and `transfer_identifier` delete the other usernames of an
account before they commit one of their own. The `DELETE` finds what is committed when it
begins, so a username that another transaction gives the account after that stays.

`Clearing` is what a transaction knows of the usernames that its `DELETE` is to remove:
each is still to be looked at, or was given since. Every statement of another transaction
keeps it, and so does every one of its own; after the last row, what is left was given
since. A commit is `GivenAlone` when nothing of that is in its way, and then it leaves one
username (`oneUsernameFor_view`); otherwise it leaves two (`two_usernames`).
-/

namespace BlinkLnurl

open Rel Conc

namespace Postgres

/-- The accounts in `ids` have at most one username on each domain. -/
def OneUsernameFor (ids : String → Prop) (s : AccountStore) : Prop :=
  ∀ x ∈ s.accountIdentifiers, ∀ y ∈ s.accountIdentifiers, ids x.accountId →
    x.accountId = y.accountId → x.domain = y.domain → x.identifierKind = .username →
      y.identifierKind = .username → x = y

/-! ## The condition on a commit -/

/-- The thread begins the `DELETE` of other usernames. -/
def beginsDelete (t : Nat) (ev : StatementEvent) : Bool :=
  decide (ev.thread = t) &&
    match ev.call with
    | .scan (.deleteOthers _) => true
    | _ => false

/-- The usernames that a commit gave. -/
def givenBy : StatementEvent → List AccountIdentifier
  | ⟨_, .commit, committing⟩ => committing.given
  | _ => []

/-- The usernames given since the thread began its `DELETE`. -/
def givenSince (t : Nat) (log : List StatementEvent) : List AccountIdentifier :=
  (sinceLast (beginsDelete t) log).flatMap givenBy

/-- None of the usernames is given to an account that another one was given on the same
domain since the thread began its `DELETE`, and that is still there. -/
def GivenAlone (t : Nat) (given : List AccountIdentifier) (h : History) : Prop :=
  ∀ r ∈ given, ∀ r' ∈ givenSince t h.log,
    r'.accountId = r.accountId → r'.domain = r.domain → r'.identifier ≠ r.identifier →
      ∀ x ∈ (h.state.view t).accountIdentifiers.rows, ¬ SameUsername r' x

instance (t : Nat) (given : List AccountIdentifier) (h : History) :
    Decidable (GivenAlone t given h) :=
  inferInstanceAs (Decidable (∀ r ∈ given, ∀ r' ∈ givenSince t h.log,
    r'.accountId = r.accountId → r'.domain = r.domain → r'.identifier ≠ r.identifier →
      ∀ x ∈ (h.state.view t).accountIdentifiers.rows, ¬ SameUsername r' x))

/-- A commit gives its usernames alone. -/
def GivesAlone (h : History) (ev : StatementEvent) : Prop := GivenAlone ev.thread (givenBy ev) h

instance (h : History) (ev : StatementEvent) : Decidable (GivesAlone h ev) :=
  inferInstanceAs (Decidable (GivenAlone ev.thread (givenBy ev) h))

theorem givenSince_concat {t : Nat} {log : List StatementEvent} {ev : StatementEvent}
    (hev : beginsDelete t ev = false) :
    givenSince t (log ++ [ev]) = givenSince t log ++ givenBy ev := by
  unfold givenSince sinceLast
  rw [List.rtakeWhile_concat, if_pos (by rw [hev]; rfl), List.flatMap_append,
    List.flatMap_singleton]

namespace SameUsername

variable {r r' r'' : AccountIdentifier}

theorem trans (h : SameUsername r r') (h' : SameUsername r' r'') : SameUsername r r'' :=
  ⟨h.1, h'.2.1, h.2.2.1.trans h'.2.2.1, h.2.2.2.1.trans h'.2.2.2.1, h.2.2.2.2.trans h'.2.2.2.2⟩

theorem refl (h : r.identifierKind = .username) : SameUsername r r := ⟨h, h, rfl, rfl, rfl⟩

end SameUsername

/-! ## What a transaction keeps track of -/

theorem Name.others_iff {n : Name} {r : AccountIdentifier} :
    n.others r = true ↔ r.accountId = n.accountId ∧ r.domain = n.domain ∧
      r.identifierKind = .username ∧ r.identifier ≠ n.identifier := by
  simp [Name.others, and_assoc]

theorem Name.others_congr {n : Name} {r r' : AccountIdentifier} (h : SameUsername r r') :
    n.others r = n.others r' := by
  unfold Name.others
  rw [h.1, h.2.1, h.2.2.1, h.2.2.2.1, h.2.2.2.2]

/-- The transaction has written rows in `P` only. -/
def Wrote (t : Nat) (P : AccountIdentifier → Prop) (h : History) : Prop :=
  ∀ v ∈ h.state.accountIdentifiers.versions, v.writer = some t → P v.row

/-- The other usernames that are committed are yet to be deleted (`todo`), or were given
since the `DELETE` began. -/
def Clearing (t : Nat) (n : Name) (todo : List Nat) (h : History) : Prop :=
  ∀ v ∈ h.state.accountIdentifiers.versions, v.writer = none → v.eraser ≠ some t →
    n.others v.row = true →
      v.rowId ∈ todo ∨ ∃ r ∈ givenSince t h.log, SameUsername r v.row

theorem Wrote.mono {t : Nat} {P P' : AccountIdentifier → Prop} {h : History} (hwrote : Wrote t P h)
    (himp : ∀ r, P r → P' r) : Wrote t P' h := fun v hv hwriter => himp _ (hwrote v hv hwriter)

/-- One more statement that is not the transaction's `DELETE`: what is committed after it
was so before, or was given by it. -/
theorem Clearing.push {t : Nat} {n : Name} {todo : List Nat} {h : History} {ev : StatementEvent}
    {db : Database} (hclearing : Clearing t n todo h) (hev : beginsDelete t ev = false)
    (hrows : ∀ v' ∈ db.accountIdentifiers.versions, v'.writer = none → v'.eraser ≠ some t →
      v'.row.identifierKind = .username →
        (∃ v ∈ h.state.accountIdentifiers.versions, v.writer = none ∧ v.eraser ≠ some t ∧
          v.rowId = v'.rowId ∧ SameUsername v.row v'.row) ∨
        ∃ r ∈ givenBy ev, SameUsername r v'.row) :
    Clearing t n todo (h.push ev db) := by
  intro v' hv' hwriter heraser hothers
  have hkind := (Name.others_iff.mp hothers).2.2.1
  rw [Hist.push_log, givenSince_concat hev]
  rcases hrows v' hv' hwriter heraser hkind with ⟨v, hv, hwriter, heraser, hid, hsame⟩ | hgiven
  · rw [← Name.others_congr hsame] at hothers
    refine (hclearing v hv hwriter heraser hothers).imp (fun htodo => hid ▸ htodo) ?_
    intro ⟨r, hr, hr'⟩
    exact ⟨r, List.mem_append_left _ hr, hr'.trans hsame⟩
  · obtain ⟨r, hr, hr'⟩ := hgiven
    exact Or.inr ⟨r, List.mem_append_right _ hr, hr'⟩

/-- Only a commit that takes effect gives usernames. -/
theorem givenBy_exec {t : Nat} {c : Statement} {ch : Choice c} {db db' : Database} {r : Reply c}
    (h : exec t c ch db = some (r, db')) :
    givenBy ⟨t, c, r⟩ = [] ∨
      c = .commit ∧ givenBy ⟨t, c, r⟩ = given t db ∧ db' = db.commit t := by
  cases c with
  | commit =>
      cases ch with
      | heard =>
          cases h
          exact Or.inr ⟨rfl, rfl, rfl⟩
      | unheard =>
          cases h
          exact Or.inr ⟨rfl, rfl, rfl⟩
      | failed =>
          cases h
          exact Or.inl rfl
  | _ => exact Or.inl rfl

theorem mem_given {t : Nat} {db : Database} {r : AccountIdentifier} :
    r ∈ given t db ↔ ∃ v ∈ db.accountIdentifiers.versions, v.writer = some t ∧
      v.eraser ≠ some t ∧ v.row.identifierKind = .username ∧
      (∀ w ∈ db.accountIdentifiers.versions, w.writer = none → w.rowId = v.rowId →
        ¬ SameUsername w.row v.row) ∧ v.row = r := by
  unfold given
  simp only [List.mem_map, List.mem_filter, Bool.and_eq_true, decide_eq_true_eq, bne_iff_ne,
    List.all_eq_true, Bool.not_eq_true', Bool.and_eq_false_iff, decide_eq_false_iff_not,
    and_assoc]
  refine exists_congr fun v => and_congr_right fun _ => and_congr_right fun _ =>
    and_congr_right fun _ => and_congr_right fun _ => and_congr_left fun _ => ?_
  refine forall_congr' fun w => forall_congr' fun _ => ?_
  tauto

/-! ## What they keep -/

section Keeps

variable {t i : Nat} {n : Name} {todo : List Nat} {P : AccountIdentifier → Prop} {h : History}
  {db : Database}

theorem Clearing.same {ev : StatementEvent} (hclearing : Clearing t n todo h)
    (hev : beginsDelete t ev = false)
    (hsame : db.accountIdentifiers = h.state.accountIdentifiers) :
    Clearing t n todo (h.push ev db) := by
  refine hclearing.push hev fun v hv hwriter heraser hkind => Or.inl ?_
  rw [hsame] at hv
  exact ⟨v, hv, hwriter, heraser, rfl, .refl hkind⟩

theorem Wrote.same {ev : StatementEvent} (hwrote : Wrote t P h)
    (hsame : db.accountIdentifiers = h.state.accountIdentifiers) : Wrote t P (h.push ev db) := by
  intro v hv
  rw [Hist.push_state, hsame] at hv
  exact hwrote v hv

/-- The erasures of any transaction hide nothing that was committed and is still there. -/
theorem Clearing.written {ev : StatementEvent} (hclearing : Clearing t n todo h)
    (hev : beginsDelete t ev = false)
    (hwritten : Versions.WrittenBy i P h.state.accountIdentifiers db.accountIdentifiers) :
    Clearing t n todo (h.push ev db) := by
  refine hclearing.push hev fun v' hv' hwriter heraser hkind => Or.inl ?_
  rcases hwritten v' hv' with ⟨v, hv, rfl | ⟨hlive, rfl⟩⟩ | ⟨hown, _⟩
  · exact ⟨v', hv, hwriter, heraser, rfl, .refl hkind⟩
  · exact ⟨v, hv, hwriter, by rw [hlive.2]; exact nofun, rfl, .refl hkind⟩
  · rw [hwriter] at hown
    cases hown

theorem Wrote.written {P' : AccountIdentifier → Prop} {ev : StatementEvent} (hwrote : Wrote t P h)
    (hwritten : Versions.WrittenBy i P' h.state.accountIdentifiers db.accountIdentifiers)
    (himp : t = i → ∀ r, P' r → P r) : Wrote t P (h.push ev db) := by
  intro v' hv' hwriter
  rcases hwritten v' hv' with ⟨v, hv, rfl | ⟨_, rfl⟩⟩ | ⟨hown, hP⟩
  · exact hwrote v' hv hwriter
  · exact hwrote v hv hwriter
  · exact himp (Option.some.inj (hwriter.symm.trans hown)) _ hP

theorem Clearing.rollback {ev : StatementEvent} (hne : t ≠ i) (hclearing : Clearing t n todo h)
    (hev : beginsDelete t ev = false) : Clearing t n todo (h.push ev (h.state.rollback i)) := by
  refine hclearing.push hev fun v' hv' hwriter heraser hkind => Or.inl ?_
  obtain ⟨v, hv, _, rfl⟩ := Versions.mem_rollback.mp hv'
  rw [Version.release_writer] at hwriter
  rw [Version.release_row] at hkind
  refine ⟨v, hv, hwriter, fun hlock => heraser ?_, Version.release_rowId.symm, ?_⟩
  · have hother : v.eraser ≠ some i := fun h => hne (Option.some.inj (hlock.symm.trans h))
    rw [Version.release, if_neg hother]
    exact hlock
  · rw [Version.release_row]
    exact .refl hkind

theorem Wrote.rollback {ev : StatementEvent} (hwrote : Wrote t P h) :
    Wrote t P (h.push ev (h.state.rollback i)) := by
  intro v' hv' hwriter
  obtain ⟨v, hv, _, rfl⟩ := Versions.mem_rollback.mp hv'
  rw [Version.release_writer] at hwriter
  rw [Version.release_row]
  exact hwrote v hv hwriter

/-- A commit of another transaction: a username that was not there before is given. -/
theorem Clearing.commit {ev : StatementEvent} (hne : t ≠ i) (hclearing : Clearing t n todo h)
    (hev : beginsDelete t ev = false) (hgiven : givenBy ev = given i h.state) :
    Clearing t n todo (h.push ev (h.state.commit i)) := by
  refine hclearing.push hev fun v' hv' hwriter heraser hkind => ?_
  obtain ⟨v, hv, hkept, rfl⟩ := Versions.mem_commit.mp hv'
  rw [Version.settle_eraser] at heraser
  simp only [Version.settle_row, Version.settle_rowId] at hkind ⊢
  rcases Version.settle_writer_eq_none.mp hwriter with hwriter | hwriter
  · exact Or.inl ⟨v, hv, hwriter, heraser, rfl, .refl hkind⟩
  · by_cases hbefore : ∃ w ∈ h.state.accountIdentifiers.versions, w.writer = none ∧
        w.rowId = v.rowId ∧ SameUsername w.row v.row
    · obtain ⟨w, hw, hwnone, hid, hsame⟩ := hbefore
      refine Or.inl ⟨w, hw, hwnone, fun hlock => ?_, hid, hsame⟩
      -- `v` has taken the place of `w`, so `i` has the lock on it
      have hvw : w ≠ v := by
        rintro rfl
        rw [hwnone] at hwriter
        cases hwriter
      rcases Versions.apart_of_ne hw hv hvw (Or.inl hid) with hrep | hrep
      · rw [hrep.2, hwriter] at hlock
        exact hne (Option.some.inj hlock).symm
      · exact hrep.1 hwnone
    · refine Or.inr ⟨v.row, ?_, .refl hkind⟩
      rw [hgiven]
      refine mem_given.mpr ⟨v, hv, hwriter, hkept, hkind, fun w hw hwnone hid hsame => ?_, rfl⟩
      exact hbefore ⟨w, hw, hwnone, hid, hsame⟩

theorem Wrote.commit {ev : StatementEvent} (hwrote : Wrote t P h) :
    Wrote t P (h.push ev (h.state.commit i)) := by
  intro v' hv' hwriter
  obtain ⟨v, hv, _, rfl⟩ := Versions.mem_commit.mp hv'
  rw [Version.settle_row]
  refine hwrote v hv ?_
  unfold Version.settle at hwriter
  split at hwriter
  · cases hwriter
  · exact hwriter

/-- The scan of the `DELETE` finds what is committed. -/
theorem clearing_scan {rows : List Nat} {ev : StatementEvent}
    (hperm : rows.Perm ((Scan.deleteOthers n).rows t h.state)) :
    Clearing t n rows (h.push ev h.state) := by
  intro v hv hwriter heraser hothers
  refine Or.inl (hperm.mem_iff.mpr ?_)
  exact Versions.mem_scan.mpr ⟨v, hv, ⟨Or.inl hwriter, heraser⟩, hothers, rfl⟩

/-- One row's turn. -/
theorem Clearing.delete {ev : StatementEvent} {rowId : Nat}
    (hclearing : Clearing t n (rowId :: todo) h) (hev : beginsDelete t ev = false)
    (happly : (Change.deleteOther n rowId).apply t h.state = .done ((), db)) :
    Clearing t n todo (h.push ev db) := by
  have hkept := hclearing.written hev (Change.apply_identifiers happly)
  obtain ⟨rows, hrows, hpair⟩ := Attempt.map_eq_done.mp happly
  cases hpair
  intro v hv hwriter heraser hothers
  rcases hkept v hv hwriter heraser hothers with htodo | hgiven
  · rcases List.mem_cons.mp htodo with hid | htodo
    · exact absurd (Versions.erased_of_deleteRow hrows hv hid hwriter hothers) heraser
    · exact Or.inl htodo
  · exact Or.inr hgiven

end Keeps

/-! ## A commit -/

section Commit

variable {t : Nat} {n : Name} {h : History} {ids : String → Prop}

/-- A username the transaction has written and one it sees committed are the same. -/
theorem eq_of_written (hunique : OneUsernameFor ids h.state.committed)
    (hclearing : Clearing t n [] h) (hwrote : Wrote t n.Names h)
    (halone : GivenAlone t (given t h.state) h)
    {v w : Version AccountIdentifier} (hv : v ∈ h.state.accountIdentifiers.versions)
    (hw : w ∈ h.state.accountIdentifiers.versions) (hown : v.writer = some t)
    (hvseen : Version.Sees t v) (hwriter : w.writer = none) (hwseen : Version.Sees t w)
    (hids : ids v.row.accountId) (haccount : v.row.accountId = w.row.accountId)
    (hdomain : v.row.domain = w.row.domain) (hkind : v.row.identifierKind = .username)
    (hkind' : w.row.identifierKind = .username) : v.row.identifier = w.row.identifier := by
  obtain ⟨hid, hdom, hname⟩ := hwrote v hv hown
  by_contra hne
  have hothers : n.others w.row = true := Name.others_iff.mpr
    ⟨haccount.symm.trans hid, hdomain.symm.trans hdom, hkind', fun h => hne (hname.trans h.symm)⟩
  rcases hclearing w hw hwriter hwseen.2 hothers with htodo | ⟨r', hr', hsame⟩
  · exact absurd htodo List.not_mem_nil
  · by_cases hbefore : ∃ u ∈ h.state.accountIdentifiers.versions, u.writer = none ∧
        u.rowId = v.rowId ∧ SameUsername u.row v.row
    · -- the username was the account's before, so it is the only one
      obtain ⟨u, hu, hunone, _, huv⟩ := hbefore
      have huw := hunique u.row (Versions.mem_committed.mpr ⟨u, hu, hunone, rfl⟩) w.row
        (Versions.mem_committed.mpr ⟨w, hw, hwriter, rfl⟩) (huv.2.2.1 ▸ hids)
        (huv.2.2.1.trans haccount) (huv.2.2.2.1.trans hdomain) huv.1 hkind'
      exact hne (huv.2.2.2.2.symm.trans (congrArg AccountIdentifier.identifier huw))
    · refine halone v.row ?_ r' hr' ?_ ?_ ?_ w.row ?_ hsame
      · refine mem_given.mpr ⟨v, hv, hown, hvseen.2, hkind, fun u hu hunone hid hsame => ?_, rfl⟩
        exact hbefore ⟨u, hu, hunone, hid, hsame⟩
      · exact hsame.2.2.1.trans haccount.symm
      · exact hsame.2.2.2.1.trans hdomain.symm
      · exact fun h => hne (h.symm.trans hsame.2.2.2.2)
      · exact Versions.mem_view.mpr ⟨w, hw, hwseen, rfl⟩

/-- A transaction that has deleted the other usernames, and gives one alone, commits one
username. -/
theorem oneUsernameFor_view (hunique : OneUsernameFor ids h.state.committed)
    (hclearing : Clearing t n [] h) (hwrote : Wrote t n.Names h)
    (halone : GivenAlone t (given t h.state) h) :
    OneUsernameFor ids (h.state.view t) := by
  intro x hx y hy hids haccount hdomain hkind hkind'
  obtain ⟨v, hv, hvseen, rfl⟩ := Versions.mem_view.mp hx
  obtain ⟨w, hw, hwseen, rfl⟩ := Versions.mem_view.mp hy
  have hsame : v.row.identifier = w.row.identifier := by
    rcases hvseen.1 with hvnone | hvown <;> rcases hwseen.1 with hwnone | hwown
    · have heq := hunique v.row (Versions.mem_committed.mpr ⟨v, hv, hvnone, rfl⟩) w.row
        (Versions.mem_committed.mpr ⟨w, hw, hwnone, rfl⟩) hids haccount hdomain hkind hkind'
      rw [heq]
    · exact (eq_of_written hunique hclearing hwrote halone hw hv hwown hwseen hvnone hvseen
        (haccount ▸ hids) haccount.symm hdomain.symm hkind' hkind).symm
    · exact eq_of_written hunique hclearing hwrote halone hv hw hvown hvseen hwnone hwseen hids
        haccount hdomain hkind hkind'
    · exact (hwrote v hv hvown).2.2.trans (hwrote w hw hwown).2.2.symm
  exact Table.eq_of_key hx hy (Prod.ext hdomain hsame)

/-- A username that is not given alone makes two. -/
theorem two_usernames (hids : ∀ r ∈ given t h.state, ids r.accountId)
    (hnot : ¬ GivenAlone t (given t h.state) h) : ¬ OneUsernameFor ids (h.state.view t) := by
  intro hunique
  unfold GivenAlone at hnot
  push Not at hnot
  obtain ⟨r, hr, r', _, haccount, hdomain, hne, x, hx, hsame⟩ := hnot
  have hid := hids r hr
  obtain ⟨v, hv, hown, hkept, hkind, _, rfl⟩ := mem_given.mp hr
  have hseen := Versions.mem_view.mpr ⟨v, hv, ⟨Or.inr hown, hkept⟩, rfl⟩
  have haccount : x.accountId = v.row.accountId := hsame.2.2.1.symm.trans haccount
  have heq := hunique x hx v.row hseen (haccount ▸ hid) haccount
    (hsame.2.2.2.1.symm.trans hdomain) hsame.2.1 hkind
  exact hne (hsame.2.2.2.2.trans (congrArg AccountIdentifier.identifier heq))

end Commit

end Postgres

end BlinkLnurl
