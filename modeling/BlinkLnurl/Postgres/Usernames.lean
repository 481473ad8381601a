import BlinkLnurl.Lib.Outline
import BlinkLnurl.Lib.Stretch
import BlinkLnurl.Postgres.Clearing
import BlinkLnurl.Postgres.Transactions

/-!
# One username per Spark account and domain, under concurrent transactions

Any number of `upsert_spark_registration` and `transfer_identifier` transactions at READ
COMMITTED. When a transaction commits, its `DELETE` has removed the other usernames of the
account or they were given since (`usernameContract`), so a run in which every username is
given alone leaves every Spark account at most one on each domain, and the first that is
not leaves an account two (`one_username_per_account`). Two registrations for the account
of one pubkey are enough for that (`race_leaves_two_usernames`).
-/

namespace BlinkLnurl

open Rel Conc

namespace Postgres

/-- Every Spark account has at most one username on each domain. -/
def OneUsername (s : AccountStore) : Prop := OneUsernameFor (fun id => s.HasProvider id .spark) s

/-! ## The contract of the transactions -/

/-- Versions are written by threads that have made calls. -/
def Authored (h : History) : Prop :=
  ∀ v ∈ h.state.accountIdentifiers.versions, ∀ t, v.writer = some t →
    ∃ ev ∈ h.log, ev.thread = t

/-- `blink` are the Blink accounts: their rows stay, and nothing is said of their
usernames. -/
structure Inv (blink : String → Prop) (h : History) : Prop where
  unique : OneUsernameFor (fun id => ¬ blink id) h.state.committed
  authored : Authored h
  replacing : Replacing h.state
  stays : ∀ id, blink id → ∃ v ∈ h.state.accounts.versions, v.row.accountId = id ∧
    v.row.provider = .blink ∧ v.writer = none ∧ v.eraser = none

def usernameContract (blink : String → Prop) : Contract Request Statement Reply Database where
  inv := Inv blink
  rely t h h' := (∀ P, Wrote t P h → Wrote t P h') ∧
    (∀ n todo, Clearing t n todo h → Clearing t n todo h') ∧
    ∀ id, SeesSpark t id h.state → SeesSpark t id h'.state
  guard t _ h c :=
    match c with
    | .commit => ∃ n, Wrote t n.Names h ∧ Clearing t n [] h ∧ SeesSpark t n.accountId h.state
    | .change (.upsertAccount accountId _) => ¬ blink accountId
    | _ => True

section Contract

variable {blink : String → Prop} {t i : Nat} {q : Request} {h : History}

/-- The versions a statement leaves were there before, or are its own. -/
theorem Effect.authored {ev : StatementEvent} {db : Database} (hauthored : Authored h)
    (heffect : Effect i h.state ev db) (hthread : ev.thread = i) : Authored (h.push ev db) := by
  have hold : ∀ {t}, (∃ ev ∈ h.log, ev.thread = t) →
      ∃ ev' ∈ (h.push ev db).log, ev'.thread = t :=
    fun ⟨ev, hev, ht⟩ => ⟨ev, List.mem_append_left _ hev, ht⟩
  intro v' hv' t hwriter
  cases heffect with
  | same => exact hold (hauthored v' hv' t hwriter)
  | change happly =>
      rcases Change.apply_identifiers happly v' hv' with
        ⟨v, hv, rfl | ⟨_, rfl⟩⟩ | ⟨hown, _⟩
      · exact hold (hauthored v' hv t hwriter)
      · exact hold (hauthored v hv t hwriter)
      · refine ⟨_, List.mem_append_right _ (List.mem_singleton_self _), ?_⟩
        exact Option.some.inj (hown.symm.trans hwriter)
  | commit =>
      obtain ⟨v, hv, _, rfl⟩ := Versions.mem_commit.mp hv'
      unfold Version.settle at hwriter
      split at hwriter
      · cases hwriter
      · exact hold (hauthored v hv t hwriter)
  | rollback =>
      obtain ⟨v, hv, _, rfl⟩ := Versions.mem_rollback.mp hv'
      rw [Version.release_writer] at hwriter
      exact hold (hauthored v hv t hwriter)

/-- The statements of one transaction keep what another keeps track of. -/
theorem Effect.rely {ev : StatementEvent} {db : Database} (inv : Inv blink h) (hne : t ≠ i)
    (hthread : ev.thread = i) (heffect : Effect i h.state ev db) :
    (usernameContract blink).rely t h (h.push ev db) := by
  have hev : beginsDelete t ev = false := by
    simp [beginsDelete, hthread, Ne.symm hne]
  cases heffect with
  | same =>
      exact ⟨fun P hwrote => hwrote.same rfl, fun n todo hclearing => hclearing.same hev rfl,
        fun id hsees => hsees⟩
  | change happly =>
      have hwritten := Change.apply_identifiers happly
      exact ⟨fun P hwrote => hwrote.written hwritten fun h => absurd h hne,
        fun n todo hclearing => hclearing.written hev hwritten,
        fun id hsees => hsees.change happly⟩
  | commit hgiven =>
      exact ⟨fun P hwrote => hwrote.commit,
        fun n todo hclearing => hclearing.commit hne hev hgiven,
        fun id hsees => hsees.commit hne inv.replacing⟩
  | rollback =>
      exact ⟨fun P hwrote => hwrote.rollback,
        fun n todo hclearing => hclearing.rollback hne hev,
        fun id hsees => hsees.rollback hne⟩

theorem Inv.change {c : Change} {db : Database} {result : c.Result} {ev : StatementEvent}
    (inv : Inv blink h) (hauthored : Authored (h.push ev db))
    (hguard : (usernameContract blink).guard i q h (.change c))
    (happly : c.apply i h.state = .done (result, db)) : Inv blink (h.push ev db) where
  unique := fun x hx y hy => inv.unique x ((Change.apply_identifiers happly).committed hx) y
    ((Change.apply_identifiers happly).committed hy)
  authored := hauthored
  replacing := inv.replacing.change happly
  stays := by
    rintro id hid
    obtain ⟨v, hv, rfl, hblink, hwriter, heraser⟩ := inv.stays id hid
    obtain ⟨p, news, writes, hnames⟩ := Change.apply_accounts happly
    have hkept : p v.row = false := by
      by_contra hp
      obtain ⟨now, rfl⟩ := hnames v.row (Bool.eq_true_of_not_eq_false hp)
      exact hguard hid
    refine ⟨v, (writes.mem v).mpr (Or.inl ⟨v, hv, Version.erase_of_not hkept⟩), rfl, hblink,
      hwriter, heraser⟩

theorem Inv.commit {committing : Committing} (inv : Inv blink h)
    (hauthored : Authored (h.push ⟨i, .commit, committing⟩ (h.state.commit i)))
    (hguard : (usernameContract blink).guard i q h .commit)
    (hgiven : committing.given = given i h.state)
    (halone : GivesAlone h ⟨i, .commit, committing⟩) :
    Inv blink (h.push ⟨i, .commit, committing⟩ (h.state.commit i)) where
  unique := by
    obtain ⟨n, hwrote, hclearing, _⟩ := hguard
    rw [Hist.push_state, Database.committed_commit]
    refine oneUsernameFor_view inv.unique hclearing hwrote ?_
    rw [← hgiven]
    exact halone
  authored := hauthored
  replacing := inv.replacing.commit
  stays := by
    intro id hid
    obtain ⟨v, hv, hvid, hblink, hwriter, heraser⟩ := inv.stays id hid
    refine ⟨v, Versions.mem_commit.mpr ⟨v, hv, ?_, if_neg ?_⟩, hvid, hblink, hwriter, heraser⟩
    · rw [heraser]
      exact nofun
    · rw [hwriter]
      exact nofun

theorem Inv.rollback {ev : StatementEvent} (inv : Inv blink h)
    (hauthored : Authored (h.push ev (h.state.rollback i))) :
    Inv blink (h.push ev (h.state.rollback i)) where
  unique := by
    rw [Hist.push_state, Database.committed_rollback]
    exact inv.unique
  authored := hauthored
  replacing := inv.replacing.rollback
  stays := by
    intro id hid
    obtain ⟨v, hv, hvid, hblink, hwriter, heraser⟩ := inv.stays id hid
    refine ⟨v, Versions.mem_rollback.mpr ⟨v, hv, ?_, if_neg ?_⟩, hvid, hblink, hwriter, heraser⟩
    · rw [hwriter]
      exact nofun
    · rw [heraser]
      exact nofun

theorem usernameContract_lawful :
    (usernameContract blink).Lawful semantics GivesAlone where
  refl := fun _ _ => ⟨fun _ h => h, fun _ _ h => h, fun _ h => h⟩
  trans := fun h h' => ⟨fun P hwrote => h'.1 P (h.1 P hwrote),
    fun n todo hclearing => h'.2.1 n todo (h.2.1 n todo hclearing),
    fun id hsees => h'.2.2 id (h.2.2 id hsees)⟩
  call := by
    intro i q h c ch r db inv hguard hexec halone
    have heffect := exec_effect hexec
    have hauthored := heffect.authored inv.authored rfl
    generalize hev : (⟨i, c, r⟩ : StatementEvent) = ev at heffect hauthored
    cases heffect with
    | same => exact ⟨inv.unique, hauthored, inv.replacing, inv.stays⟩
    | change happly =>
        cases hev
        exact inv.change hauthored hguard happly
    | commit hgiven =>
        cases hev
        exact inv.commit hauthored hguard hgiven halone
    | rollback => exact inv.rollback hauthored
  tick := fun {_ t} => nomatch t
  ticks := fun {_ _ t} => nomatch t
  others := fun inv _ hexec _ hne => (exec_effect hexec).rely inv hne rfl

end Contract

/-! ## The transactions -/

/-- Statements that end no transaction, begin no `DELETE` of other usernames and write
identifier rows in `P` only. -/
def Statement.Within (blink : String → Prop) (P : AccountIdentifier → Prop) : Statement → Prop
  | .change (.upsertAccount accountId _) => ¬ blink accountId
  | .change c => ∀ r, c.Writes r → P r
  | .scan (.deleteOthers _) => False
  | .commit => False
  | .rollback => False
  | _ => True

abbrev KeepsUsernameContract (blink : String → Prop) (t : Nat) (q : Request) {α : Type}
    (p : Transaction α) (h : History) : Prop :=
  (usernameContract blink).wp semantics GivesAlone t q p (fun _ _ => True) h

section Transactions

variable {blink : String → Prop} {t : Nat} {q : Request} {h : History} {n : Name} {α β : Type}
  {P : AccountIdentifier → Prop} {ids : String → Prop}

theorem Statement.Within.writes {c : Change} (hc : Statement.Within blink P (.change c)) :
    ∀ r, c.Writes r → P r := by
  cases c with
  | upsertAccount accountId now => exact fun r hr => hr.elim
  | _ => exact hc

theorem Statement.Within.guard {c : Statement} (hc : c.Within blink P) :
    (usernameContract blink).guard t q h c := by
  cases c with
  | commit => exact hc.elim
  | change c =>
      cases c with
      | upsertAccount accountId now => exact hc
      | _ => trivial
  | _ => trivial

theorem Statement.Within.beginsDelete {c : Statement} {r : Reply c} (hc : c.Within blink P) :
    beginsDelete t ⟨t, c, r⟩ = false := by
  cases c with
  | scan s =>
      cases s with
      | reassign a => exact Bool.and_false _
      | deleteOthers n => exact hc.elim
  | _ => exact Bool.and_false _

/-- A statement of the transaction itself. -/
theorem Statement.Within.keeps {c : Statement} {ch : Choice c} {r : Reply c} {db : Database}
    (hc : c.Within blink P) (hexec : exec t c ch h.state = some (r, db)) :
    (Wrote t P h → Wrote t P (h.push ⟨t, c, r⟩ db)) ∧
      (∀ n todo, Clearing t n todo h → Clearing t n todo (h.push ⟨t, c, r⟩ db)) ∧
      ∀ id, SeesSpark t id h.state → SeesSpark t id db := by
  have hev : Postgres.beginsDelete t ⟨t, c, r⟩ = false := hc.beginsDelete
  have heffect := exec_effect hexec
  generalize hevent : (⟨t, c, r⟩ : StatementEvent) = ev at heffect hev
  cases heffect with
  | same =>
      exact ⟨fun hwrote => hwrote.same rfl, fun n todo hclearing => hclearing.same hev rfl,
        fun id hsees => hsees⟩
  | change happly =>
      cases hevent
      have hwritten := Change.apply_identifiers happly
      exact ⟨fun hwrote => hwrote.written hwritten fun _ => hc.writes,
        fun n todo hclearing => hclearing.written hev hwritten,
        fun id hsees => hsees.change happly⟩
  | commit =>
      cases hevent
      exact hc.elim
  | rollback hend =>
      cases hevent
      rcases hend with rfl | rfl
      · exact hc.elim
      · exact hc.elim

/-- What a transaction knows besides its `DELETE`: the rows it has written are in `P`, and
it sees the accounts `ids` as Spark accounts. -/
structure Knows (t : Nat) (P : AccountIdentifier → Prop) (ids : String → Prop) (h : History) :
    Prop where
  wrote : Wrote t P h
  sees : ∀ id, ids id → SeesSpark t id h.state

theorem Knows.rely {h' : History} (hknows : Knows t P ids h)
    (hrely : (usernameContract blink).rely t h h') : Knows t P ids h' :=
  ⟨hrely.1 P hknows.wrote, fun id hid => hrely.2.2 id (hknows.sees id hid)⟩

theorem Knows.keeps {c : Statement} {ch : Choice c} {r : Reply c} {db : Database}
    (hknows : Knows t P ids h) (hc : c.Within blink P)
    (hexec : exec t c ch h.state = some (r, db)) : Knows t P ids (h.push ⟨t, c, r⟩ db) :=
  ⟨(hc.keeps hexec).1 hknows.wrote, fun id hid => (hc.keeps hexec).2.2 id (hknows.sees id hid)⟩

theorem knows_carries :
    (usernameContract blink).Carries semantics GivesAlone t q (Statement.Within blink P)
      (Knows t P ids) where
  rely := fun hrely hknows => hknows.rely hrely
  guard := fun _ hc => hc.guard
  call := fun _ hc hexec _ hknows => hknows.keeps hc hexec

theorem cleared_carries :
    (usernameContract blink).Carries semantics GivesAlone t q (Statement.Within blink P)
      (fun h => Knows t P ids h ∧ Clearing t n [] h) where
  rely := fun hrely hI => ⟨hI.1.rely hrely, hrely.2.1 n [] hI.2⟩
  guard := fun _ hc => hc.guard
  call := fun _ hc hexec _ hI => ⟨hI.1.keeps hc hexec, (hc.keeps hexec).2.1 n [] hI.2⟩

theorem calls_now : now.Calls (Statement.Within blink P) := Prog.calls_perform.mpr trivial

theorem calls_query {c : Query} : (query c).Calls (Statement.Within blink P) :=
  Prog.calls_call.mpr ⟨trivial, fun _ => Prog.calls_ofExcept⟩

theorem calls_change {c : Change} (hc : Statement.Within blink P (.change c)) :
    (change c).Calls (Statement.Within blink P) :=
  Prog.calls_call.mpr ⟨hc, fun _ => Prog.calls_ofExcept⟩

theorem calls_insertStatementClaim {claim : Option StatementClaim} :
    (insertStatementClaim claim).Calls (Statement.Within blink P) := by
  cases claim with
  | none => exact Prog.calls_ret _
  | some claim =>
      simp only [insertStatementClaim, Prog.bind_eq]
      refine Prog.calls_bind calls_now fun now => ?_
      exact Prog.calls_bind (calls_change fun r hr => hr.elim) fun _ => Prog.calls_require

theorem calls_registrationAccountId {registration : NewSparkRegistration} :
    (registrationAccountId registration).Calls (Statement.Within blink P) := by
  unfold registrationAccountId
  cases registration.accountId with
  | some accountId => exact Prog.calls_ret _
  | none =>
      simp only [Prog.bind_eq]
      refine Prog.calls_bind calls_query fun stored => ?_
      cases stored with
      | some accountId => exact Prog.calls_ret _
      | none => exact Prog.calls_perform.mpr trivial

theorem calls_destinationAccountId {pubkey : String} {now : Int} :
    (destinationAccountId pubkey now).Calls (Statement.Within blink P) := by
  simp only [destinationAccountId, Prog.bind_eq, Prog.pure_eq]
  refine Prog.calls_bind calls_query fun stored => ?_
  cases stored with
  | some account => exact Prog.calls_bind Prog.calls_require fun _ => Prog.calls_ret _
  | none =>
      refine Prog.calls_bind (Prog.calls_perform.mpr trivial) fun accountId => ?_
      refine Prog.calls_bind (calls_change fun r hr => hr.elim) fun _ => ?_
      exact Prog.calls_bind (calls_change fun r hr => hr.elim) fun _ => Prog.calls_ret _

theorem calls_reassignRows {a : Reassignment} {rows : List Nat}
    (hP : ∀ r, Name.Names ⟨a.destinationAccountId, a.domain, a.identifier⟩ r → P r) :
    (reassignRows a rows).Calls (Statement.Within blink P) := by
  induction rows with
  | nil => exact Prog.calls_ret _
  | cons rowId rest ih =>
      simp only [reassignRows, Prog.bind_eq, Prog.pure_eq]
      refine Prog.calls_bind (calls_change hP) fun updated => ?_
      exact Prog.calls_bind ih fun more => Prog.calls_ret _

theorem calls_reassignIdentifier {a : Reassignment}
    (hP : ∀ r, Name.Names ⟨a.destinationAccountId, a.domain, a.identifier⟩ r → P r) :
    (reassignIdentifier a).Calls (Statement.Within blink P) := by
  simp only [reassignIdentifier, Prog.bind_eq]
  refine Prog.calls_bind ?_ fun rows => calls_reassignRows hP
  exact Prog.calls_call.mpr ⟨trivial, fun _ => Prog.calls_ofExcept⟩

/-- A first part without a `DELETE`. -/
theorem knows_bind {p : Transaction α} {f : α → Transaction β}
    (hp : p.Calls (Statement.Within blink P)) (hknows : Knows t P ids h)
    (hf : ∀ a h, Knows t P ids h → KeepsUsernameContract blink t q (f a) h) :
    KeepsUsernameContract blink t q (p.bind f) h :=
  knows_carries.bind hp (fun _ => trivial) hknows hf

/-- A part after the `DELETE`. -/
theorem cleared_bind {p : Transaction α} {f : α → Transaction β}
    (hp : p.Calls (Statement.Within blink P)) (hI : Knows t P ids h ∧ Clearing t n [] h)
    (hf : ∀ a h, Knows t P ids h ∧ Clearing t n [] h →
      KeepsUsernameContract blink t q (f a) h) :
    KeepsUsernameContract blink t q (p.bind f) h :=
  cleared_carries.bind hp (fun _ => trivial) hI hf

/-- A query, with what its answer says of the rows that the transaction sees. -/
theorem query_bind {Q : Query} {f : Q.Answer → Transaction β} (hknows : Knows t P ids h)
    (hf : ∀ h' r, Inv blink h' → Knows t P ids (h'.push ⟨t, .query Q, r⟩ h'.state) →
      KeepsUsernameContract blink t q (f (Q.answer (h'.state.view t)))
        (h'.push ⟨t, .query Q, r⟩ h'.state)) :
    KeepsUsernameContract blink t q ((query Q).bind f) h := by
  refine Contract.wp_call.mpr ?_
  intro h' hrely inv
  refine ⟨trivial, ?_⟩
  intro fails r db hexec _ _
  have hwithin : Statement.Within blink P (.query Q) := trivial
  have hknows' := (hknows.rely hrely).keeps hwithin hexec
  cases fails with
  | true =>
      cases hexec
      exact Contract.wp_fail.mpr trivial
  | false =>
      cases hexec
      exact hf h' _ inv hknows'

/-- After the check the account is not a Blink account. -/
theorem provider_bind {accountId : String} {f : Unit → Transaction β} (hknows : Knows t P ids h)
    (hf : ∀ h, ¬ blink accountId → Knows t P ids h → KeepsUsernameContract blink t q (f ()) h) :
    KeepsUsernameContract blink t q ((query (.providerOf accountId)).bind fun provider =>
      (Prog.require (∀ p, provider = some p → p = .spark) .invalidProvider).bind f) h := by
  refine query_bind hknows fun h' r inv hknows => ?_
  refine Contract.wp_require_bind trivial fun hspark => hf _ (fun hblink => ?_) hknows
  obtain ⟨v, hv, hid, hprovider, hwriter, heraser⟩ := inv.stays accountId hblink
  have hseen : v.row ∈ (h'.state.view t).accounts :=
    Versions.mem_view.mpr ⟨v, hv, ⟨Or.inl hwriter, by rw [heraser]; exact nofun⟩, rfl⟩
  have hget : (h'.state.view t).accounts.get accountId = some v.row :=
    Table.get_eq_some.mpr ⟨hseen, hid⟩
  refine nomatch hspark .blink ?_
  show ((h'.state.view t).accounts.get accountId).map Account.provider = some .blink
  rw [hget, Option.map_some, hprovider]

/-- After the check the account is seen as a Spark account. -/
theorem child_bind {accountId : String} {f : Unit → Transaction β} (hknows : Knows t P ids h)
    (hf : ∀ h, Knows t P (fun id => id = accountId) h →
      KeepsUsernameContract blink t q (f ()) h) :
    KeepsUsernameContract blink t q ((query (.hasSparkChild accountId)).bind fun hasSparkChild =>
      (Prog.require (hasSparkChild = true) .invalidProvider).bind f) h := by
  refine query_bind hknows fun h' r _ hknows => ?_
  refine Contract.wp_require_bind trivial fun hchild => hf _ ⟨hknows.wrote, ?_⟩
  rintro id rfl
  have hspark := (of_decide_eq_true hchild).1
  obtain ⟨a, ha, hprovider⟩ := Option.map_eq_some_iff.mp hspark
  obtain ⟨hmem, hid⟩ := Table.get_eq_some.mp ha
  obtain ⟨v, hv, hsees, rfl⟩ := Versions.mem_view.mp hmem
  exact ⟨v, hv, hsees, hid, hprovider⟩

/-- After the statement the account is seen as a Spark account. -/
theorem upsertAccount_bind {accountId : String} {now : Int} {f : Unit → Transaction β}
    (hspark : ¬ blink accountId) (hI : Knows t P ids h ∧ Clearing t n [] h)
    (hf : ∀ h, Knows t P (fun id => id = accountId) h ∧ Clearing t n [] h →
      KeepsUsernameContract blink t q (f ()) h) :
    KeepsUsernameContract blink t q ((change (.upsertAccount accountId now)).bind f) h := by
  refine Contract.wp_call.mpr ?_
  intro h' hrely _
  refine ⟨hspark, ?_⟩
  intro fails r db hexec _ _
  have hwithin : Statement.Within blink P (.change (.upsertAccount accountId now)) := hspark
  rcases execChange_cases hexec with ⟨_, rfl⟩ | ⟨result, rfl, happly⟩
  · exact Contract.wp_fail.mpr trivial
  · refine hf _ ⟨⟨(hI.1.rely hrely).keeps hwithin hexec |>.wrote, ?_⟩,
      (hwithin.keeps hexec).2.1 n [] (hrely.2.1 n [] hI.2)⟩
    rintro id rfl
    obtain ⟨w, hid, writes⟩ := Change.upsertAccount_accounts happly
    obtain ⟨hwriter, heraser, hprovider⟩ := writes.new w (List.mem_singleton_self w)
    refine ⟨w, (writes.mem w).mpr (Or.inr (List.mem_singleton_self w)), ⟨Or.inr hwriter, ?_⟩, hid,
      hprovider⟩
    rw [heraser]
    exact nofun

theorem deleteRows_bind {todo : List Nat} {f : Unit → Transaction β} (hknows : Knows t P ids h)
    (hclearing : Clearing t n todo h)
    (hf : ∀ h, Knows t P ids h ∧ Clearing t n [] h → KeepsUsernameContract blink t q (f ()) h) :
    KeepsUsernameContract blink t q ((deleteRows n todo).bind f) h := by
  induction todo generalizing h with
  | nil => exact hf h ⟨hknows, hclearing⟩
  | cons rowId rest ih =>
      refine Contract.wp_call.mpr ?_
      intro h' hrely _
      refine ⟨trivial, ?_⟩
      intro fails r db hexec _ _
      have hwithin : Statement.Within blink P (.change (.deleteOther n rowId)) :=
        fun r hr => hr.elim
      have hknows' := (hknows.rely hrely).keeps hwithin hexec
      rcases execChange_cases hexec with ⟨_, rfl⟩ | ⟨result, rfl, happly⟩
      · exact Contract.wp_fail.mpr trivial
      · exact ih hknows' ((hrely.2.1 n _ hclearing).delete hwithin.beginsDelete happly)

/-- The `DELETE` of other usernames. -/
theorem deleteOtherUsernames_bind {f : Unit → Transaction β} (hknows : Knows t P ids h)
    (hf : ∀ h, Knows t P ids h ∧ Clearing t n [] h → KeepsUsernameContract blink t q (f ()) h) :
    KeepsUsernameContract blink t q ((deleteOtherUsernames n).bind f) h := by
  refine Contract.wp_call.mpr ?_
  intro h' hrely _
  refine ⟨trivial, ?_⟩
  intro order r db hexec _ _
  obtain ⟨rfl, hperm⟩ := execScan_cases hexec
  have hknows := hknows.rely hrely
  cases r with
  | error e => exact Contract.wp_fail.mpr trivial
  | ok rows =>
      refine deleteRows_bind ⟨hknows.wrote.same rfl, hknows.sees⟩ ?_ hf
      exact clearing_scan (hperm rows rfl)

theorem commit_keeps (hI : Knows t n.Names (fun id => id = n.accountId) h ∧ Clearing t n [] h) :
    KeepsUsernameContract blink t q commit h := by
  refine Contract.wp_call.mpr ?_
  intro h' hrely _
  have hknows := hI.1.rely hrely
  refine ⟨⟨n, hknows.wrote, hrely.2.1 n [] hI.2, hknows.sees _ rfl⟩, ?_⟩
  intro fate committing db _ _ _
  cases committing with
  | heard given => exact Contract.wp_ret.mpr trivial
  | unheard given => exact Contract.wp_fail.mpr trivial
  | failed => exact Contract.wp_fail.mpr trivial

theorem transaction_keeps {body : Transaction Unit} (hknows : Knows t P ids h)
    (hbody : ∀ h, Knows t P ids h → KeepsUsernameContract blink t q body h) :
    KeepsUsernameContract blink t q (transaction body) h := by
  simp only [transaction, Prog.bind_eq, Prog.pure_eq]
  refine knows_bind (Prog.calls_call.mpr ⟨trivial, fun _ => Prog.calls_ofExcept⟩) hknows ?_
  intro _ h hknows
  refine Contract.wp_bind.mpr (Contract.wp_attempt.mpr (Contract.wp_mono ?_ (hbody h hknows)))
  intro h r _
  cases r with
  | ok _ => exact Contract.wp_ret.mpr trivial
  | error e =>
      refine Contract.wp_call.mpr fun _ _ _ => ⟨trivial, ?_⟩
      intro _ _ _ _ _ _
      exact Contract.wp_fail.mpr trivial

/-- Rows of a name may be written from here on. -/
theorem Knows.names (hknows : Knows t (fun _ => False) ids h) : Knows t P ids h :=
  ⟨hknows.wrote.mono fun _ hr => hr.elim, hknows.sees⟩

theorem upsertSparkRegistration_keeps {registration : NewSparkRegistration}
    (hknows : Knows t (fun _ => False) ids h) :
    KeepsUsernameContract blink t q (upsertSparkRegistration registration) h := by
  simp only [upsertSparkRegistration, Prog.bind_eq]
  refine knows_bind Prog.calls_ofExcept hknows fun _ h hknows => ?_
  refine knows_bind calls_now hknows fun now h hknows => ?_
  refine transaction_keeps hknows fun h hknows => ?_
  refine knows_bind calls_insertStatementClaim hknows fun _ h hknows => ?_
  refine knows_bind calls_registrationAccountId hknows fun accountId h hknows => ?_
  refine provider_bind hknows fun h hspark hknows => ?_
  refine knows_bind calls_query hknows fun owner h hknows => ?_
  refine knows_bind Prog.calls_require hknows fun _ h hknows => ?_
  refine knows_bind calls_query hknows fun owner h hknows => ?_
  refine knows_bind Prog.calls_require hknows fun _ h hknows => ?_
  have hknows : Knows t (Name.Names ⟨accountId, registration.identifier.domain,
      registration.identifier.identifier⟩) ids h := hknows.names
  refine deleteOtherUsernames_bind hknows fun h hI => ?_
  refine upsertAccount_bind hspark hI fun h hI => ?_
  refine cleared_bind (calls_change fun r hr => hr.elim) hI fun _ h hI => ?_
  refine cleared_bind (calls_change fun r hr => hr) hI fun _ h hI => ?_
  exact commit_keeps hI

theorem transferIdentifier_keeps {transfer : IdentifierTransfer}
    (hknows : Knows t (fun _ => False) ids h) :
    KeepsUsernameContract blink t q (transferIdentifier transfer) h := by
  simp only [transferIdentifier, Prog.bind_eq]
  refine knows_bind calls_now hknows fun now h hknows => ?_
  refine transaction_keeps hknows fun h hknows => ?_
  refine knows_bind calls_insertStatementClaim hknows fun _ h hknows => ?_
  refine knows_bind calls_query hknows fun source h hknows => ?_
  refine knows_bind Prog.calls_require hknows fun _ h hknows => ?_
  refine knows_bind calls_query hknows fun pubkey h hknows => ?_
  refine knows_bind Prog.calls_require hknows fun _ h hknows => ?_
  refine knows_bind calls_destinationAccountId hknows fun destination h hknows => ?_
  refine child_bind hknows fun h hknows => ?_
  have hknows : Knows t (Name.Names ⟨destination, transfer.domain, transfer.identifier⟩)
      (fun id => id = destination) h := hknows.names
  refine knows_bind (calls_reassignIdentifier fun r hr => hr) hknows fun updated h hknows => ?_
  refine knows_bind Prog.calls_require hknows fun _ h hknows => ?_
  refine deleteOtherUsernames_bind hknows fun h hI => ?_
  exact commit_keeps hI

end Transactions

/-! ## Runs -/

theorem username_outline (blink : String → Prop) :
    Outline (usernameContract blink) semantics GivesAlone handler (fun _ _ _ _ => True) where
  lawful := usernameContract_lawful
  post_stable := fun _ _ _ => trivial
  accept := by
    intro i q h inv hfresh
    have hwrote : Wrote i (fun _ => False) h := by
      intro v hv hwriter
      obtain ⟨ev, hev, hthread⟩ := inv.authored v hv i hwriter
      exact absurd hthread (Nat.ne_of_lt (hfresh ev hev))
    have hknows : Knows i (fun _ => False) (fun _ => False) h := ⟨hwrote, fun _ hid => hid.elim⟩
    cases q with
    | register registration => exact upsertSparkRegistration_keeps hknows
    | transfer transfer => exact transferIdentifier_keeps hknows

theorem usernames_initial {s : AccountStore} (hinv : AccountStore.RepInv s) :
    Inv (fun id => s.HasProvider id .blink) { state := .ofStore s, log := [] } where
  unique := by
    intro x hx y hy hid haccount hdomain hkind hkind'
    obtain ⟨v, hv, _, rfl⟩ := Versions.mem_committed.mp hx
    obtain ⟨w, hw, _, rfl⟩ := Versions.mem_committed.mp hy
    have hv := (Versions.mem_ofTable hv).1
    have hw := (Versions.mem_ofTable hw).1
    obtain ⟨provider, hprovider⟩ := hinv.owner hv
    cases provider with
    -- an account that is not a Blink account is a Spark account at the start
    | spark => exact hinv.one_username hv hw hprovider haccount hdomain hkind hkind'
    | blink => exact absurd hprovider hid
  authored := by
    intro v hv t hwriter
    rw [(Versions.mem_ofTable hv).2.1] at hwriter
    cases hwriter
  replacing := by
    intro v hv j hj
    rw [(Versions.mem_ofTable hv).2.2] at hj
    cases hj
  stays := by
    rintro id ⟨a, ha, hid, hblink⟩
    obtain ⟨v, hv, rfl⟩ := Versions.exists_mem_ofTable ha
    exact ⟨v, hv, hid, hblink, (Versions.mem_ofTable hv).2⟩

/-- Of accounts that are not Blink accounts nothing else is known. -/
theorem Inv.oneUsername {blink : String → Prop} {h : History} (inv : Inv blink h) :
    OneUsername h.state.committed := by
  intro x hx y hy hspark
  refine inv.unique x hx y hy fun hblink => ?_
  obtain ⟨v, hv, hid, hprovider, hwriter, _⟩ := inv.stays _ hblink
  have hrow : h.state.committed.HasProvider x.accountId .blink :=
    ⟨v.row, Versions.mem_committed.mpr ⟨v, hv, hwriter, rfl⟩, hid, hprovider⟩
  exact nomatch hspark.unique hrow

/-- Any number of registrations and transfers, whatever the order of their statements: as
long as usernames are given alone, what is committed, and so the store when all have ended,
has at most one username for each Spark account and domain; and the next call keeps it so
exactly if it gives its usernames alone. -/
theorem one_username_per_account {s : AccountStore} (hinv : AccountStore.RepInv s)
    {cfg : Config Request Statement Reply RepositoryError Unit Database}
    (h : Reachable semantics GivesAlone handler (.ofStore s) cfg) :
    OneUsername cfg.hist.state.committed ∧
      ∀ cfg' ev, Took semantics always handler (.ofStore s) cfg' ev cfg cfg' →
        (OneUsername cfg'.hist.state.committed ↔ GivesAlone cfg.hist ev) := by
  have houtlined := Reachable.sound (username_outline _) (usernames_initial hinv) h
  refine ⟨houtlined.inv.oneUsername, fun cfg' ev took => ?_⟩
  obtain ⟨i, c, r⟩ := ev
  obtain ⟨q, k, ch, hth, hexec, _⟩ := took.call
  have hguard := houtlined.guard usernameContract_lawful.toKeeps hth
  have hinv' := usernameContract_lawful.call houtlined.inv hguard hexec
  constructor
  · intro hunique
    by_contra hnot
    -- only a commit that takes effect gives usernames
    rcases givenBy_exec hexec with hnone | ⟨rfl, hgiven, hdb⟩
    · refine hnot fun r₁ hr₁ => ?_
      rw [hnone] at hr₁
      exact absurd hr₁ List.not_mem_nil
    · obtain ⟨n, hwrote, _, hsees⟩ := hguard
      unfold OneUsername at hunique
      rw [hdb, Database.committed_commit] at hunique
      refine two_usernames (fun r₁ hr₁ => ?_) (hgiven ▸ hnot) hunique
      obtain ⟨v, hv, hown, _, _, _, rfl⟩ := mem_given.mp hr₁
      rw [(hwrote v hv hown).1]
      exact hsees.hasProvider
  · intro halone
    exact (hinv' halone).oneUsername

/-! ## Registrations of one account -/

/-- A registration as the route makes it; it names no account. -/
def registerAs (pubkey identifier : String) : Request :=
  .register
    { accountId := none
      pubkey
      identifier :=
        { domain := "blink.sv", identifier, identifierKind := .username, description := "" }
      claim := some ⟨pubkey ++ identifier, "register", 1600⟩ }

/-- The row it writes. -/
def usernameRow (accountId identifier : String) : AccountIdentifier :=
  { accountId, domain := "blink.sv", identifier, identifierKind := .username, description := ""
    createdAt := 1000, updatedAt := 1000 }

/-- Nothing fails, and a scan finds its rows in the order given. -/
def choose (rows : List Nat) (accountId : String) : (c : Statement) → Choice c
  | .now => (1000 : Int)
  | .generateAccountId => accountId
  | .begin => false
  | .query _ => false
  | .change _ => false
  | .scan _ => some rows
  | .commit => CommitFate.heard
  | .rollback => ()

/-- The next `n` statements of thread `i`. -/
def statementsOf (i n : Nat) (rows : List Nat) (accountId : String) :
    List (Move Request semantics) :=
  List.replicate n (.call i (choose rows accountId))

abbrev Sessions := Config Request Statement Reply RepositoryError Unit Database

/-- The run of a schedule on an empty database. -/
abbrev runOf (ok : History → StatementEvent → Prop) [∀ h ev, Decidable (ok h ev)]
    (moves : List (Move Request semantics)) : Option Sessions :=
  replay semantics ok handler moves (.initial (.ofStore .empty))

def usernames (cfg : Sessions) : List AccountIdentifier :=
  cfg.hist.state.committed.accountIdentifiers.rows

/-- Bob's registration finds alice to delete; before it commits, carol is registered for
another account. -/
def turns : List (Move Request semantics) :=
  [.accept (registerAs "02ab" "alice"), .accept (registerAs "02ab" "bob"),
    .accept (registerAs "02cd" "carol")] ++
    statementsOf 0 14 [] "acct_1" ++ statementsOf 1 10 [0] "" ++ statementsOf 2 14 [] "acct_2" ++
    statementsOf 1 4 [] ""

/-- Bob and carol are registered for the account of alice. Both find alice to delete, and
carol's `DELETE` waits for bob's commit. Carol's own commit is the last call. -/
def race : List (Move Request semantics) :=
  [.accept (registerAs "02ab" "alice"), .accept (registerAs "02ab" "bob"),
    .accept (registerAs "02ab" "carol")] ++
    statementsOf 0 14 [] "acct_1" ++ statementsOf 1 10 [0] "" ++ statementsOf 2 9 [0] "" ++
    statementsOf 1 4 [] "" ++ statementsOf 2 4 [] ""

def lastCommit : Move Request semantics := .call 2 (choose [] "")

/-- A run in which usernames are given alone, and one whose last commit does not do so. -/
theorem one_username_per_account_turns :
    (∃ cfg, Reachable semantics GivesAlone handler (.ofStore .empty) cfg ∧
      usernames cfg = [usernameRow "acct_2" "carol", usernameRow "acct_1" "bob"] ∧
      (∀ i < cfg.threads.length, cfg.outcome i = some (.ok ())) ∧
      OneUsername cfg.hist.state.committed) ∧
    ∃ mid cfg ev, Reachable semantics GivesAlone handler (.ofStore .empty) mid ∧
      Took semantics always handler (.ofStore .empty) cfg ev mid cfg ∧
      givenBy ev = [usernameRow "acct_1" "carol"] ∧ ¬ OneUsername cfg.hist.state.committed := by
  constructor
  · have hrun : (runOf GivesAlone turns).any (fun cfg =>
        decide (usernames cfg = [usernameRow "acct_2" "carol", usernameRow "acct_1" "bob"] ∧
          ∀ i < cfg.threads.length, cfg.outcome i = some (.ok ()))) = true := by
      decide +kernel
    obtain ⟨cfg, hreach, _, hcfg⟩ := reachable_of_replay hrun
    obtain ⟨hrows, hended⟩ := of_decide_eq_true hcfg
    exact ⟨cfg, hreach, hrows, hended, (one_username_per_account .empty hreach).1⟩
  · have hrun : (runOf GivesAlone race).any (fun mid =>
        decide (usernameRow "acct_1" "bob" ∈ givenSince 2 mid.hist.log ∧
          usernameRow "acct_1" "bob" ∈ (mid.hist.state.view 2).accountIdentifiers.rows) &&
        (lastCommit.apply semantics always handler mid).any fun cfg =>
          decide (cfg.hist.log.getLast?.map givenBy = some [usernameRow "acct_1" "carol"])) =
            true := by decide +kernel
    obtain ⟨mid, hreach, _, hmid⟩ := reachable_of_replay hrun
    obtain ⟨hbob, hlast⟩ := Bool.and_eq_true_iff.mp hmid
    obtain ⟨hsince, hseen⟩ := of_decide_eq_true hbob
    obtain ⟨cfg, happly, hcfg⟩ := (Option.any_eq_true _ _).mp hlast
    obtain ⟨ev, took, hthread⟩ := took_of_apply (Steps.mono (fun _ _ _ => trivial) hreach) happly
    have hgiven := of_decide_eq_true hcfg
    rw [took.log, List.getLast?_concat, Option.map_some] at hgiven
    have hgiven := Option.some.inj hgiven
    refine ⟨mid, cfg, ev, hreach, took, hgiven, fun hunique => ?_⟩
    have halone := ((one_username_per_account .empty hreach).2 cfg ev took).mp hunique
    -- bob was given since carol's `DELETE` began, and carol sees him
    refine halone (usernameRow "acct_1" "carol") ?_ (usernameRow "acct_1" "bob") ?_ rfl rfl
      (by decide) (usernameRow "acct_1" "bob") ?_ (.refl rfl)
    · rw [hgiven]
      exact List.mem_singleton_self _
    · rw [hthread]
      exact hsince
    · rw [hthread]
      exact hseen

/-- All three registrations succeed, and the account has two usernames. -/
theorem race_leaves_two_usernames :
    ∃ cfg, Reachable semantics always handler (.ofStore .empty) cfg ∧
      (∀ i, cfg.request i = [registerAs "02ab" "alice", registerAs "02ab" "bob",
        registerAs "02ab" "carol"][i]?) ∧
      (∀ i < cfg.threads.length, cfg.outcome i = some (.ok ())) ∧
      ¬ OneUsername cfg.hist.state.committed := by
  have hrun : (runOf always (race ++ [lastCommit])).any (fun cfg =>
      decide (usernameRow "acct_1" "bob" ∈ usernames cfg ∧
        usernameRow "acct_1" "carol" ∈ usernames cfg ∧
        (∃ a ∈ cfg.hist.state.committed.accounts.rows,
          a.accountId = "acct_1" ∧ a.provider = .spark) ∧
        ∀ i < cfg.threads.length, cfg.outcome i = some (.ok ()))) = true := by decide +kernel
  obtain ⟨cfg, hreach, hserved, hcfg⟩ := reachable_of_replay hrun
  obtain ⟨hbob, hcarol, hspark, hended⟩ := of_decide_eq_true hcfg
  refine ⟨cfg, hreach, hserved, hended, fun hunique => ?_⟩
  have heq := hunique _ hbob _ hcarol hspark rfl rfl rfl rfl
  exact absurd (congrArg AccountIdentifier.identifier heq) (by decide)

end Postgres

end BlinkLnurl
