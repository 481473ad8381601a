import BlinkLnurl.Repository.Accounts

/-!
# What each account operation can do

The account tables seen from outside: which provider an account has
(`HasProvider`), which pubkey or Blink account it belongs to (`HasSpark`,
`HasBlink`), and which identifiers it holds. Each operation's success is one
of a few effects on this view:

* nothing changes in it (`SameAccounts`);
* a Spark account appears (`AddsSpark`);
* one identifier is assigned to an account, and the account's other usernames
  on that domain go (`Assigns`);
* one identifier row goes;
* a Blink account appears together with its identifiers.

All invariants of the account tables are derived from these lemmas; none of
them unfolds an operation again.
-/

namespace BlinkLnurl

open Rel

/-- A transaction that succeeds has succeeded at each of its steps. -/
theorem bind_ok {ε α β : Type} {x : Except ε α} {f : α → Except ε β} {b : β} :
    (x >>= f) = .ok b ↔ ∃ a, x = .ok a ∧ f a = .ok b := by
  cases x with
  | error e => exact ⟨fun h => (nomatch h), fun ⟨_, h, _⟩ => (nomatch h)⟩
  | ok a => exact ⟨fun h => ⟨a, rfl, h⟩, fun ⟨_, ha, h⟩ => by cases ha; exact h⟩

namespace AccountStore

theorem ensure_ok {c : Prop} [Decidable c] {e : RepositoryError} {u : Unit} :
    ensure c e = .ok u ↔ c := by
  unfold ensure
  split
  · exact ⟨fun _ => ‹c›, fun _ => rfl⟩
  · exact ⟨fun h => (nomatch h), fun h => absurd h ‹¬ c›⟩

theorem orGeneral_ok {α : Type} {o : Option α} {a : α} : orGeneral o = .ok a ↔ o = some a := by
  cases o with
  | none => exact ⟨fun h => (nomatch h), fun h => (nomatch h)⟩
  | some b => exact ⟨fun h => by cases h; rfl, fun h => by cases h; rfl⟩

/-! ## The view -/

def HasProvider (s : AccountStore) (accountId : String) (provider : AccountProvider) : Prop :=
  ∃ a ∈ s.accounts, a.accountId = accountId ∧ a.provider = provider

def HasSpark (s : AccountStore) (accountId pubkey : String) : Prop :=
  ∃ r ∈ s.sparkAccounts, r.accountId = accountId ∧ r.pubkey = pubkey

def HasBlink (s : AccountStore) (accountId : String) : Prop :=
  ∃ r ∈ s.blinkAccounts, r.accountId = accountId

theorem HasProvider.unique {s : AccountStore} {accountId : String} {p p' : AccountProvider}
    (h : s.HasProvider accountId p) (h' : s.HasProvider accountId p') : p = p' := by
  obtain ⟨a, ha, hid, rfl⟩ := h
  obtain ⟨b, hb, hid', rfl⟩ := h'
  rw [Table.eq_of_key ha hb (hid.trans hid'.symm)]

theorem HasSpark.pubkey_unique {s : AccountStore} {accountId pk pk' : String}
    (h : s.HasSpark accountId pk) (h' : s.HasSpark accountId pk') : pk = pk' := by
  obtain ⟨r, hr, hid, rfl⟩ := h
  obtain ⟨r', hr', hid', rfl⟩ := h'
  rw [Table.eq_of_clash hr hr' (Or.inl (hid.trans hid'.symm))]

theorem HasSpark.account_unique {s : AccountStore} {accountId accountId' pk : String}
    (h : s.HasSpark accountId pk) (h' : s.HasSpark accountId' pk) : accountId = accountId' := by
  obtain ⟨r, hr, rfl, hpk⟩ := h
  obtain ⟨r', hr', rfl, hpk'⟩ := h'
  rw [Table.eq_of_clash hr hr' (Or.inr (hpk.trans hpk'.symm))]

theorem accountOfPubkey_eq_some {s : AccountStore} {pubkey : String} {r : SparkAccount} :
    s.accountOfPubkey pubkey = some r ↔ r ∈ s.sparkAccounts ∧ r.pubkey = pubkey := by
  constructor
  · intro h
    obtain ⟨hr, hp⟩ := Table.mem_of_find? h
    exact ⟨hr, of_decide_eq_true hp⟩
  · rintro ⟨hr, hp⟩
    refine Table.find?_eq_some_of_unique hr (decide_eq_true hp) fun r' hr' hp' => ?_
    exact Table.eq_of_clash hr' hr (Or.inr ((of_decide_eq_true hp').trans hp.symm))

theorem accountOfPubkey_eq_none {s : AccountStore} {pubkey : String} :
    s.accountOfPubkey pubkey = none ↔ ∀ id, ¬ s.HasSpark id pubkey := by
  unfold accountOfPubkey
  rw [Table.find?_eq_none]
  constructor
  · rintro h id ⟨r, hr, _, hp⟩
    exact h r hr (decide_eq_true hp)
  · intro h r hr hp
    exact h r.accountId ⟨r, hr, rfl, of_decide_eq_true hp⟩

theorem sparkAccountOf_eq_some {s : AccountStore} {id : String} {r : SparkAccount} :
    s.sparkAccountOf id = some r ↔ r ∈ s.sparkAccounts ∧ r.accountId = id := by
  constructor
  · intro h
    obtain ⟨hr, hp⟩ := Table.mem_of_find? h
    exact ⟨hr, of_decide_eq_true hp⟩
  · rintro ⟨hr, hp⟩
    refine Table.find?_eq_some_of_unique hr (decide_eq_true hp) fun r' hr' hp' => ?_
    exact Table.eq_of_clash hr' hr (Or.inl ((of_decide_eq_true hp').trans hp.symm))

theorem sparkAccountOf_eq_none {s : AccountStore} {id : String} :
    s.sparkAccountOf id = none ↔ ∀ pk, ¬ s.HasSpark id pk := by
  unfold sparkAccountOf
  rw [Table.find?_eq_none]
  constructor
  · rintro h pk ⟨r, hr, hid, _⟩
    exact h r hr (decide_eq_true hid)
  · intro h r hr hid
    exact h r.pubkey ⟨r, hr, of_decide_eq_true hid, rfl⟩

theorem blinkAccountOf_isSome {s : AccountStore} {id : String} :
    (s.blinkAccountOf id).isSome = true ↔ s.HasBlink id := by
  unfold blinkAccountOf HasBlink
  constructor
  · intro h
    obtain ⟨r, hr⟩ := Option.isSome_iff_exists.mp h
    obtain ⟨hmem, hp⟩ := Table.mem_of_find? hr
    exact ⟨r, hmem, of_decide_eq_true hp⟩
  · rintro ⟨r, hr, hid⟩
    by_contra hno
    have hnone := Option.not_isSome_iff_eq_none.mp hno
    exact Table.find?_eq_none.mp hnone r hr (decide_eq_true hid)

theorem hasProvider_iff {s : AccountStore} {id : String} {p : AccountProvider} :
    s.HasProvider id p ↔ (s.accounts.get id).map Account.provider = some p := by
  rw [Option.map_eq_some_iff]
  constructor
  · rintro ⟨a, ha, hid, hp⟩
    exact ⟨a, Table.get_eq_some.mpr ⟨ha, hid⟩, hp⟩
  · rintro ⟨a, hget, hp⟩
    obtain ⟨ha, hid⟩ := Table.get_eq_some.mp hget
    exact ⟨a, ha, hid, hp⟩

/-! ## Effects -/

/-- The accounts, and who they belong to, are the same. -/
structure SameAccounts (s s' : AccountStore) : Prop where
  provider : ∀ id p, s'.HasProvider id p ↔ s.HasProvider id p
  spark : ∀ id pk, s'.HasSpark id pk ↔ s.HasSpark id pk
  blink : ∀ id, s'.HasBlink id ↔ s.HasBlink id

theorem SameAccounts.of_tables {s s' : AccountStore} (ha : s'.accounts = s.accounts)
    (hs : s'.sparkAccounts = s.sparkAccounts) (hb : s'.blinkAccounts = s.blinkAccounts) :
    SameAccounts s s' where
  provider := fun id p => by unfold HasProvider; rw [ha]
  spark := fun id pk => by unfold HasSpark; rw [hs]
  blink := fun id => by unfold HasBlink; rw [hb]

/-- A Spark account appears for a pubkey that had none. -/
structure AddsSpark (s s' : AccountStore) (accountId pubkey : String) : Prop where
  fresh : ∀ p, ¬ s.HasProvider accountId p
  unowned : ∀ id, ¬ s.HasSpark id pubkey
  provider : ∀ id p, s'.HasProvider id p ↔ s.HasProvider id p ∨ (id = accountId ∧ p = .spark)
  spark : ∀ id pk, s'.HasSpark id pk ↔ s.HasSpark id pk ∨ (id = accountId ∧ pk = pubkey)
  blink : ∀ id, s'.HasBlink id ↔ s.HasBlink id

/-- The pubkey has the Spark account `accountId` afterwards, and nothing else
has changed about the accounts. -/
inductive EnsuresSpark (s s' : AccountStore) (accountId pubkey : String) : Prop
  | stored (provider : s.HasProvider accountId .spark) (spark : s.HasSpark accountId pubkey)
      (same : SameAccounts s s')
  | added (adds : AddsSpark s s' accountId pubkey)

section Ensures

variable {s s' : AccountStore} {accountId pubkey : String}

theorem EnsuresSpark.hasSpark (h : EnsuresSpark s s' accountId pubkey) :
    s'.HasSpark accountId pubkey := by
  cases h with
  | stored _ spark same => exact (same.spark _ _).mpr spark
  | added adds => exact (adds.spark _ _).mpr (Or.inr ⟨rfl, rfl⟩)

theorem EnsuresSpark.isSpark (h : EnsuresSpark s s' accountId pubkey) :
    s'.HasProvider accountId .spark := by
  cases h with
  | stored provider _ same => exact (same.provider _ _).mpr provider
  | added adds => exact (adds.provider _ _).mpr (Or.inr ⟨rfl, rfl⟩)

/-- Accounts stay. -/
theorem EnsuresSpark.hasProvider (h : EnsuresSpark s s' accountId pubkey) {id : String}
    {p : AccountProvider} (hp : s.HasProvider id p) : s'.HasProvider id p := by
  cases h with
  | stored _ _ same => exact (same.provider _ _).mpr hp
  | added adds => exact (adds.provider _ _).mpr (Or.inl hp)

end Ensures

/-- `row` is stored, other rows stay but for the other usernames of its account
on its domain. -/
def Assigns (ids ids' : Table AccountIdentifier) (row : AccountIdentifier) : Prop :=
  ∀ x, x ∈ ids' ↔ x = row ∨ (x ∈ ids ∧ Keyed.key x ≠ Keyed.key row ∧
    ¬ (x.accountId = row.accountId ∧ x.domain = row.domain ∧ x.identifierKind = .username))

/-- A Blink account appears, holding `rows`. -/
structure OpensBlink (s s' : AccountStore) (accountId : String) : Prop where
  fresh : ∀ p, ¬ s.HasProvider accountId p
  provider : ∀ id p, s'.HasProvider id p ↔ s.HasProvider id p ∨ (id = accountId ∧ p = .blink)
  spark : ∀ id pk, s'.HasSpark id pk ↔ s.HasSpark id pk
  blink : ∀ id, s'.HasBlink id ↔ s.HasBlink id ∨ id = accountId
  identifiers : ∀ x, x ∈ s.accountIdentifiers → x ∈ s'.accountIdentifiers
  opened : ∀ x, x ∈ s'.accountIdentifiers → x ∈ s.accountIdentifiers ∨ x.accountId = accountId

/-- What an operation that acts on a signed statement does to the record of
used statements. -/
def Claimed (claim : Option StatementClaim) (used used' : Table UsedSignedMessage) : Prop :=
  match claim with
  | none => used' = used
  | some claim => ∃ row : UsedSignedMessage, row.statementHash = claim.statementHash ∧
      row.expiresAt = claim.expiresAt ∧ (∀ r ∈ used, r.statementHash ≠ claim.statementHash) ∧
      ∀ r, r ∈ used' ↔ r ∈ used ∨ r = row

theorem insertStatementClaim_ok {ctx : Ctx} {claim : Option StatementClaim} {s s₁ : AccountStore}
    (h : insertStatementClaim ctx claim s = .ok s₁) :
    s₁ = { s with usedSignedMessages := s₁.usedSignedMessages } ∧
      Claimed claim s.usedSignedMessages s₁.usedSignedMessages := by
  cases claim with
  | none =>
      simp only [insertStatementClaim, Except.ok.injEq] at h
      subst h
      exact ⟨rfl, rfl⟩
  | some claim =>
      simp only [insertStatementClaim] at h
      split at h
      · rename_i used hused
        cases h
        refine ⟨rfl, _, rfl, rfl, fun r hr hc => ?_, fun r => Table.mem_insert hused⟩
        exact (Table.insert_eq_some hused).2 r hr hc
      · cases h

/-! ## The invariant -/

/-- Every account has the child row of its provider and no other, every
identifier belongs to an account, and a Spark account has one username on a
domain at most. -/
structure RepInv (s : AccountStore) : Prop where
  spark_provider : ∀ {id pk}, s.HasSpark id pk → s.HasProvider id .spark
  blink_provider : ∀ {id}, s.HasBlink id → s.HasProvider id .blink
  spark_child : ∀ {id}, s.HasProvider id .spark → ∃ pk, s.HasSpark id pk
  blink_child : ∀ {id}, s.HasProvider id .blink → s.HasBlink id
  owner : ∀ {x}, x ∈ s.accountIdentifiers → ∃ p, s.HasProvider x.accountId p
  one_username : ∀ {x y}, x ∈ s.accountIdentifiers → y ∈ s.accountIdentifiers →
    s.HasProvider x.accountId .spark → x.accountId = y.accountId → x.domain = y.domain →
    x.identifierKind = .username → y.identifierKind = .username → x = y

theorem RepInv.empty : RepInv AccountStore.empty where
  spark_provider := fun ⟨_, hr, _⟩ => absurd hr (Table.not_mem_empty _)
  blink_provider := fun ⟨_, hr, _⟩ => absurd hr (Table.not_mem_empty _)
  spark_child := fun ⟨_, hr, _⟩ => absurd hr (Table.not_mem_empty _)
  blink_child := fun ⟨_, hr, _⟩ => absurd hr (Table.not_mem_empty _)
  owner := fun hr => absurd hr (Table.not_mem_empty _)
  one_username := fun hr => absurd hr (Table.not_mem_empty _)

/-- An effect that leaves the accounts alone keeps the invariant if it leaves
each identifier row as it was, or drops it. -/
theorem RepInv.same {s s' : AccountStore} (inv : RepInv s) (same : SameAccounts s s')
    (hids : ∀ x ∈ s'.accountIdentifiers, x ∈ s.accountIdentifiers) : RepInv s' where
  spark_provider := fun h => (same.provider _ _).mpr (inv.spark_provider ((same.spark _ _).mp h))
  blink_provider := fun h => (same.provider _ _).mpr (inv.blink_provider ((same.blink _).mp h))
  spark_child := fun h => by
    obtain ⟨pk, hpk⟩ := inv.spark_child ((same.provider _ _).mp h)
    exact ⟨pk, (same.spark _ _).mpr hpk⟩
  blink_child := fun h => (same.blink _).mpr (inv.blink_child ((same.provider _ _).mp h))
  owner := fun hx => by
    obtain ⟨p, hp⟩ := inv.owner (hids _ hx)
    exact ⟨p, (same.provider _ _).mpr hp⟩
  one_username := fun hx hy hsp =>
    inv.one_username (hids _ hx) (hids _ hy) ((same.provider _ _).mp hsp)

theorem RepInv.addsSpark {s s' : AccountStore} {id pk : String} (inv : RepInv s)
    (adds : AddsSpark s s' id pk)
    (hids : ∀ x ∈ s'.accountIdentifiers, x ∈ s.accountIdentifiers) : RepInv s' where
  spark_provider := fun h => by
    rcases (adds.spark _ _).mp h with h | ⟨rfl, rfl⟩
    · exact (adds.provider _ _).mpr (Or.inl (inv.spark_provider h))
    · exact (adds.provider _ _).mpr (Or.inr ⟨rfl, rfl⟩)
  blink_provider := fun h =>
    (adds.provider _ _).mpr (Or.inl (inv.blink_provider ((adds.blink _).mp h)))
  spark_child := fun h => by
    rcases (adds.provider _ _).mp h with h | ⟨rfl, _⟩
    · obtain ⟨pk', hpk'⟩ := inv.spark_child h
      exact ⟨pk', (adds.spark _ _).mpr (Or.inl hpk')⟩
    · exact ⟨pk, (adds.spark _ _).mpr (Or.inr ⟨rfl, rfl⟩)⟩
  blink_child := fun h => by
    rcases (adds.provider _ _).mp h with h | ⟨_, h⟩
    · exact (adds.blink _).mpr (inv.blink_child h)
    · cases h
  owner := fun hx => by
    obtain ⟨p, hp⟩ := inv.owner (hids _ hx)
    exact ⟨p, (adds.provider _ _).mpr (Or.inl hp)⟩
  one_username := fun hx hy hsp => by
    refine inv.one_username (hids _ hx) (hids _ hy) ?_
    rcases (adds.provider _ _).mp hsp with h | ⟨h, _⟩
    · exact h
    · obtain ⟨p, hp⟩ := inv.owner (hids _ hx)
      exact absurd (h ▸ hp) (adds.fresh p)

/-- Assigning an identifier to a Spark account keeps the invariant: the
account's other usernames on that domain are gone. -/
theorem RepInv.assigns {s s' : AccountStore} {row : AccountIdentifier} {pk : String}
    (inv : RepInv s) (ens : EnsuresSpark s s' row.accountId pk)
    (assigns : Assigns s.accountIdentifiers s'.accountIdentifiers row) : RepInv s' := by
  -- the accounts of `s'` with the identifiers of `s`
  let mid : AccountStore := { s' with accountIdentifiers := s.accountIdentifiers }
  have hmid : RepInv mid ∧ mid.HasProvider row.accountId .spark := by
    cases ens with
    | stored provider spark same =>
        refine ⟨inv.same ⟨same.provider, same.spark, same.blink⟩ fun _ => id, ?_⟩
        exact (same.provider _ _).mpr provider
    | added adds =>
        have adds' : AddsSpark s mid row.accountId pk :=
          ⟨adds.fresh, adds.unowned, adds.provider, adds.spark, adds.blink⟩
        refine ⟨inv.addsSpark adds' fun _ => id, ?_⟩
        exact (adds.provider _ _).mpr (Or.inr ⟨rfl, rfl⟩)
  obtain ⟨hinv, hrow⟩ := hmid
  refine ⟨hinv.spark_provider, hinv.blink_provider, hinv.spark_child, hinv.blink_child, ?_, ?_⟩
  · intro x hx
    rcases (assigns x).mp hx with rfl | ⟨hx, _⟩
    · exact ⟨.spark, hrow⟩
    · exact hinv.owner hx
  · intro x y hx hy hsp hid hd hkx hky
    rcases (assigns x).mp hx with rfl | ⟨hx, _, hnx⟩
    · rcases (assigns y).mp hy with rfl | ⟨_, _, hny⟩
      · rfl
      · exact absurd ⟨hid.symm, hd.symm, hky⟩ hny
    · rcases (assigns y).mp hy with rfl | ⟨hy, _, _⟩
      · exact absurd ⟨hid, hd, hkx⟩ hnx
      · exact hinv.one_username hx hy hsp hid hd hkx hky

theorem RepInv.opensBlink {s s' : AccountStore} {id : String} (inv : RepInv s)
    (opens : OpensBlink s s' id) : RepInv s' where
  spark_provider := fun h =>
    (opens.provider _ _).mpr (Or.inl (inv.spark_provider ((opens.spark _ _).mp h)))
  blink_provider := fun h => by
    rcases (opens.blink _).mp h with h | rfl
    · exact (opens.provider _ _).mpr (Or.inl (inv.blink_provider h))
    · exact (opens.provider _ _).mpr (Or.inr ⟨rfl, rfl⟩)
  spark_child := fun h => by
    rcases (opens.provider _ _).mp h with h | ⟨_, h⟩
    · obtain ⟨pk, hpk⟩ := inv.spark_child h
      exact ⟨pk, (opens.spark _ _).mpr hpk⟩
    · cases h
  blink_child := fun h => by
    rcases (opens.provider _ _).mp h with h | ⟨rfl, _⟩
    · exact (opens.blink _).mpr (Or.inl (inv.blink_child h))
    · exact (opens.blink _).mpr (Or.inr rfl)
  owner := fun hx => by
    rcases opens.opened _ hx with hx | hx
    · obtain ⟨p, hp⟩ := inv.owner hx
      exact ⟨p, (opens.provider _ _).mpr (Or.inl hp)⟩
    · exact ⟨.blink, (opens.provider _ _).mpr (Or.inr ⟨hx, rfl⟩)⟩
  one_username := fun {x y} hx hy hsp hid => by
    -- a row of the new account is not a Spark account's
    have hold : ∀ z ∈ s'.accountIdentifiers, z.accountId = x.accountId →
        z ∈ s.accountIdentifiers := by
      intro z hz hzx
      rcases opens.opened z hz with hz | hz
      · exact hz
      · rcases (opens.provider _ _).mp hsp with h | ⟨_, h⟩
        · exact absurd ((hzx.symm.trans hz) ▸ h) (opens.fresh _)
        · cases h
    have hsp' : s.HasProvider x.accountId .spark := by
      rcases (opens.provider _ _).mp hsp with h | ⟨_, h⟩
      · exact h
      · cases h
    exact inv.one_username (hold x hx rfl) (hold y hy hid.symm) hsp' hid

end AccountStore

end BlinkLnurl
