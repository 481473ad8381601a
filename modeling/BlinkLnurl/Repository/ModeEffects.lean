import BlinkLnurl.Repository.AccountOps

/-!
# What the account operations do to a mode record

The mode columns of a pubkey, as `get_spark_account_mode` reads them. Three
statements write them (`acceptMode`, `refreshCountry`, `fillMode`); a first
contact adds a record with nothing in it (`unsetMode`); every other operation
leaves all records as they are.
-/

namespace BlinkLnurl

open Rel

/-- The timestamp is newer than the anchor. -/
def SparkAccountMode.OlderThan (record : SparkAccountMode) (timestamp : Int) : Prop :=
  ∀ anchor, record.modeLastTimestamp = some anchor → anchor < timestamp

theorem olderThan_iff {record : SparkAccountMode} {timestamp : Int} :
    record.OlderThan timestamp ↔
      record.modeLastTimestamp.all (fun anchor => anchor < timestamp) = true := by
  unfold SparkAccountMode.OlderThan
  cases record.modeLastTimestamp <;> simp

instance (record : SparkAccountMode) (timestamp : Int) : Decidable (record.OlderThan timestamp) :=
  decidable_of_iff _ olderThan_iff.symm

/-- The record after an accepted mode request. -/
def acceptMode (now : Int) (update : SparkModeUpdate) (record : SparkAccountMode) :
    SparkAccountMode :=
  let country := match update.mode with
    | .anon => none
    | .enhanced => update.country
  let writeCountry := update.mode = .anon || country.isSome
  { record with
    mode := some update.mode
    modeSource := some (if record.mode = none then .signup else .switch)
    modeUpdatedAt := some now
    modeLastTimestamp := some update.clientTimestamp
    country := if writeCountry then country else record.country
    countryUpdatedAt :=
      if writeCountry then country.map fun _ => now else record.countryUpdatedAt }

/-- The record after a country refresh. -/
def refreshCountry (now : Int) (country : String) (record : SparkAccountMode) : SparkAccountMode :=
  { record with country := some country, countryUpdatedAt := some now }

/-- The record after a server-side fill. -/
def fillMode (now : Int) (record : SparkAccountMode) : SparkAccountMode :=
  { record with
    mode := some .enhanced, modeSource := some .migration, modeUpdatedAt := some now }

/-- The record of a first contact. -/
def unsetMode (accountId pubkey : String) : SparkAccountMode :=
  { accountId, pubkey, mode := none, modeSource := none, modeUpdatedAt := none
    modeLastTimestamp := none, country := none, countryUpdatedAt := none }

/-- The mode columns of a row. -/
def SparkAccount.modeRecord (r : SparkAccount) : SparkAccountMode :=
  { accountId := r.accountId
    pubkey := r.pubkey
    mode := r.mode
    modeSource := r.modeSource
    modeUpdatedAt := r.modeUpdatedAt
    modeLastTimestamp := r.modeLastTimestamp
    country := r.country
    countryUpdatedAt := r.countryUpdatedAt }

namespace AccountStore

variable {ctx : Ctx} {s s' : AccountStore} {pubkey : String}

def HasMode (s : AccountStore) (record : SparkAccountMode) : Prop :=
  ∃ r ∈ s.sparkAccounts, r.modeRecord = record

theorem getSparkAccountMode_eq_some {record : SparkAccountMode} :
    s.getSparkAccountMode pubkey = some record ↔ s.HasMode record ∧ record.pubkey = pubkey := by
  unfold getSparkAccountMode
  rw [Option.map_eq_some_iff]
  constructor
  · intro ⟨r, hr, hrecord⟩
    obtain ⟨hmem, hpk⟩ := accountOfPubkey_eq_some.mp hr
    refine ⟨⟨r, hmem, hrecord⟩, ?_⟩
    rw [← hrecord]
    exact hpk
  · intro ⟨⟨r, hmem, hrecord⟩, hpk⟩
    refine ⟨r, accountOfPubkey_eq_some.mpr ⟨hmem, ?_⟩, hrecord⟩
    rw [← hpk, ← hrecord]
    rfl

theorem getSparkAccountMode_eq_none :
    s.getSparkAccountMode pubkey = none ↔ ∀ id, ¬ s.HasSpark id pubkey := by
  unfold getSparkAccountMode
  rw [Option.map_eq_none_iff, accountOfPubkey_eq_none]

/-! ## First contact -/

/-- The operation leaves all mode records as they are. -/
def KeepsModes (s s' : AccountStore) : Prop := ∀ record, s'.HasMode record ↔ s.HasMode record

theorem KeepsModes.of_rows (h : s'.sparkAccounts = s.sparkAccounts) : KeepsModes s s' := by
  intro record
  unfold HasMode
  rw [h]

theorem KeepsModes.getSparkAccountMode (h : KeepsModes s s') :
    s'.getSparkAccountMode pubkey = s.getSparkAccountMode pubkey := by
  refine Option.ext fun record => ?_
  rw [getSparkAccountMode_eq_some, getSparkAccountMode_eq_some, h]

/-- A record for a pubkey that had none. -/
structure AddsMode (s s' : AccountStore) (accountId pubkey : String) : Prop where
  unowned : s.getSparkAccountMode pubkey = none
  modes : ∀ record, s'.HasMode record ↔ s.HasMode record ∨ record = unsetMode accountId pubkey

theorem AddsMode.self {id : String} (h : AddsMode s s' id pubkey) :
    s'.getSparkAccountMode pubkey = some (unsetMode id pubkey) :=
  getSparkAccountMode_eq_some.mpr ⟨(h.modes _).mpr (Or.inr rfl), rfl⟩

theorem AddsMode.other {id pk : String} (h : AddsMode s s' id pubkey) (hne : pk ≠ pubkey) :
    s'.getSparkAccountMode pk = s.getSparkAccountMode pk := by
  refine Option.ext fun record => ?_
  rw [getSparkAccountMode_eq_some, getSparkAccountMode_eq_some, h.modes]
  constructor
  · intro ⟨hmode, hpk⟩
    rcases hmode with hmode | rfl
    · exact ⟨hmode, hpk⟩
    · exact absurd hpk.symm hne
  · exact fun ⟨hmode, hpk⟩ => ⟨Or.inl hmode, hpk⟩

/-- What the operations that may see a pubkey for the first time do. -/
def EnsuresMode (s s' : AccountStore) (pubkey : String) : Prop :=
  KeepsModes s s' ∧ s.getSparkAccountMode pubkey ≠ none ∨ ∃ id, AddsMode s s' id pubkey

theorem addsMode_of_insert {id : String} {now : Int} {sparkAccounts : Table SparkAccount}
    (hs : s.sparkAccounts.insert (newSparkAccount id pubkey now) = some sparkAccounts)
    (hs' : s'.sparkAccounts = sparkAccounts) : AddsMode s s' id pubkey where
  unowned := by
    rw [getSparkAccountMode_eq_none]
    intro id' ⟨r, hr, _, hpk⟩
    exact (Table.insert_eq_some hs).2 r hr (Or.inr hpk)
  modes := fun record => by
    unfold HasMode
    rw [hs']
    constructor
    · intro ⟨r, hr, hrecord⟩
      rcases (Table.mem_insert hs).mp hr with hr | rfl
      · exact Or.inl ⟨r, hr, hrecord⟩
      · exact Or.inr hrecord.symm
    · intro h
      rcases h with ⟨r, hr, hrecord⟩ | rfl
      · exact ⟨r, (Table.mem_insert hs).mpr (Or.inl hr), hrecord⟩
      · exact ⟨_, (Table.mem_insert hs).mpr (Or.inr rfl), rfl⟩

theorem insertSparkAccount_modes (h : insertSparkAccount ctx pubkey s = .ok s') :
    EnsuresMode s s' pubkey := by
  obtain ⟨accounts, _, h⟩ := bind_ok.mp h
  cases hpk : s.accountOfPubkey pubkey with
  | some r =>
      rw [hpk] at h
      obtain rfl := Except.ok.inj h
      refine Or.inl ⟨KeepsModes.of_rows rfl, ?_⟩
      rw [getSparkAccountMode, hpk]
      exact Option.some_ne_none _
  | none =>
      rw [hpk] at h
      obtain ⟨sparkAccounts, hs, h⟩ := bind_ok.mp h
      obtain rfl := Except.ok.inj h
      exact Or.inr ⟨_, addsMode_of_insert (orGeneral_ok.mp hs) rfl⟩

theorem destinationAccount_modes {id : String}
    (h : destinationAccount ctx pubkey s = .ok (id, s')) (inv : RepInv s) :
    EnsuresMode s s' pubkey := by
  unfold destinationAccount at h
  cases hpk : s.accountOfPubkey pubkey with
  | some r =>
      obtain ⟨hr, hrpk⟩ := accountOfPubkey_eq_some.mp hpk
      obtain ⟨a, ha, hp⟩ := Option.map_eq_some_iff.mp
        (hasProvider_iff.mp (inv.spark_provider ⟨r, hr, rfl, hrpk⟩))
      simp only [hpk, Option.bind_some, ha, Option.map_some, hp] at h
      obtain ⟨_, rfl⟩ := Prod.mk.inj (Except.ok.inj h)
      refine Or.inl ⟨KeepsModes.of_rows rfl, ?_⟩
      rw [getSparkAccountMode, hpk]
      exact Option.some_ne_none _
  | none =>
      simp only [hpk, Option.bind_none] at h
      obtain ⟨s₁, hrows, h⟩ := bind_ok.mp h
      obtain ⟨_, rfl⟩ := Prod.mk.inj (Except.ok.inj h)
      obtain ⟨accounts, _, hrows⟩ := bind_ok.mp hrows
      obtain ⟨sparkAccounts, hs, hrows⟩ := bind_ok.mp hrows
      obtain rfl := Except.ok.inj hrows
      exact Or.inr ⟨_, addsMode_of_insert (orGeneral_ok.mp hs) rfl⟩

/-- The effect is one on the rows of `spark_accounts`. -/
theorem EnsuresMode.congr {t t' : AccountStore} (h : EnsuresMode s s' pubkey)
    (hs : t.sparkAccounts = s.sparkAccounts) (hs' : t'.sparkAccounts = s'.sparkAccounts) :
    EnsuresMode t t' pubkey := by
  have hread : t.getSparkAccountMode pubkey = s.getSparkAccountMode pubkey :=
    (KeepsModes.of_rows hs).getSparkAccountMode
  rcases h with ⟨hkeeps, hsome⟩ | ⟨id, adds⟩
  · refine Or.inl ⟨fun record => ?_, by rw [hread]; exact hsome⟩
    rw [KeepsModes.of_rows hs' record, hkeeps record, KeepsModes.of_rows hs record]
  · refine Or.inr ⟨id, by rw [hread]; exact adds.unowned, fun record => ?_⟩
    rw [KeepsModes.of_rows hs' record, adds.modes record, KeepsModes.of_rows hs record]

theorem handOver_modes {domain identifier source description : String} (inv : RepInv s)
    (h : handOver ctx domain identifier source pubkey description s = .ok s') :
    EnsuresMode s s' pubkey := by
  obtain ⟨⟨dest, s₁⟩, hdest, h⟩ := bind_ok.mp h
  obtain ⟨_, _, h⟩ := bind_ok.mp h
  obtain rfl := Except.ok.inj h
  exact (destinationAccount_modes hdest inv).congr rfl rfl

theorem transferIdentifier_modes {transfer : IdentifierTransfer} (inv : RepInv s)
    (h : transferIdentifier ctx transfer s = .ok s') :
    EnsuresMode s s' transfer.destinationSparkPubkey := by
  obtain ⟨s₁, hclaim, h⟩ := bind_ok.mp h
  obtain ⟨hs₁, _⟩ := insertStatementClaim_ok hclaim
  obtain ⟨_, _, h⟩ := bind_ok.mp h
  obtain ⟨_, _, h⟩ := bind_ok.mp h
  have inv₁ : RepInv s₁ := by
    rw [hs₁]
    exact inv.same (SameAccounts.of_tables rfl rfl rfl) fun _ hx => hx
  exact (handOver_modes inv₁ h).congr (by rw [hs₁]) rfl

theorem transferBlinkIdentifierToSpark_modes {transfer : BlinkToSparkIdentifierTransfer}
    (inv : RepInv s) (h : transferBlinkIdentifierToSpark ctx transfer s = .ok s') :
    EnsuresMode s s' transfer.destinationSparkPubkey := by
  obtain ⟨_, _, h⟩ := bind_ok.mp h
  obtain ⟨_, _, h⟩ := bind_ok.mp h
  exact handOver_modes inv h

/-- A registration for a pubkey that has an account rewrites its row with the
keys it has. -/
theorem keepsModes_of_stored {id : String} {now : Int} {sparkAccounts : Table SparkAccount}
    (hspark : s.HasSpark id pubkey)
    (hs : s.sparkAccounts.insertOrUpdate (fun r => r.accountId = id)
      (fun r => { r with pubkey, updatedAt := now }) (newSparkAccount id pubkey now) =
        some sparkAccounts)
    (hs' : s'.sparkAccounts = sparkAccounts) : KeepsModes s s' := by
  have hmem := fun x => Table.mem_insertOrUpdate (x := x) hs
  obtain ⟨r, hr, hrid, hrpk⟩ := hspark
  have hsame : ∀ y ∈ s.sparkAccounts, (Table.onRow (fun x => decide (x.accountId = id))
      (fun x => { x with pubkey, updatedAt := now }) y).modeRecord = y.modeRecord := by
    intro y hy
    unfold Table.onRow
    split
    · rename_i hk
      have hyr : y = r := Table.eq_of_clash hy hr (Or.inl ((of_decide_eq_true hk).trans hrid.symm))
      rw [hyr, ← hrpk]
      rfl
    · rfl
  intro record
  unfold HasMode
  rw [hs']
  constructor
  · intro ⟨x, hx, hrecord⟩
    rcases (hmem x).mp hx with ⟨y, hy, rfl⟩ | ⟨_, hno⟩
    · exact ⟨y, hy, (hsame y hy).symm.trans hrecord⟩
    · exact absurd (decide_eq_true hrid) (hno r hr)
  · intro ⟨y, hy, hrecord⟩
    exact ⟨_, (hmem _).mpr (Or.inl ⟨y, hy, rfl⟩), (hsame y hy).trans hrecord⟩

/-- A registration for a new pubkey inserts its row. -/
theorem addsMode_of_new {id : String} {now : Int} {sparkAccounts : Table SparkAccount}
    (hnew : ∀ y ∈ s.sparkAccounts, decide (y.accountId = id) ≠ true)
    (hs : s.sparkAccounts.insertOrUpdate (fun r => r.accountId = id)
      (fun r => { r with pubkey, updatedAt := now }) (newSparkAccount id pubkey now) =
        some sparkAccounts)
    (hs' : s'.sparkAccounts = sparkAccounts) : AddsMode s s' id pubkey := by
  have hany : s.sparkAccounts.any (fun r => decide (r.accountId = id)) ≠ true := by
    intro h
    obtain ⟨y, hy, hyid⟩ := Table.any_eq_true.mp h
    exact hnew y hy hyid
  rw [Table.insertOrUpdate, if_neg hany] at hs
  exact addsMode_of_insert hs hs'

theorem upsertSparkRegistration_modes {registration : NewSparkRegistration} (inv : RepInv s)
    (hnone : registration.accountId = none) (hfresh : ∀ p, ¬ s.HasProvider ctx.generatedId p)
    (h : upsertSparkRegistration ctx registration s = .ok s') :
    EnsuresMode s s' registration.pubkey := by
  obtain ⟨_, _, h⟩ := bind_ok.mp h
  obtain ⟨s₁, hclaim, h⟩ := bind_ok.mp h
  obtain ⟨hs₁, _⟩ := insertStatementClaim_ok hclaim
  have hspk : s₁.sparkAccounts = s.sparkAccounts := by rw [hs₁]
  have haid : registrationAccountId ctx registration s₁ =
      registrationAccountId ctx registration s := by
    unfold registrationAccountId accountOfPubkey
    rw [hspk]
  simp only [hspk, haid] at h
  obtain ⟨_, _, h⟩ := bind_ok.mp h
  obtain ⟨_, _, h⟩ := bind_ok.mp h
  obtain ⟨_, _, h⟩ := bind_ok.mp h
  obtain ⟨sparkAccounts, hspark, h⟩ := bind_ok.mp h
  obtain ⟨identifiers, _, h⟩ := bind_ok.mp h
  obtain rfl := Except.ok.inj h
  unfold registrationAccountId at hspark
  rw [hnone] at hspark
  cases hpk : s.accountOfPubkey registration.pubkey with
  | some r =>
      obtain ⟨hr, hrpk⟩ := accountOfPubkey_eq_some.mp hpk
      simp only [hpk] at hspark
      refine Or.inl ⟨keepsModes_of_stored ⟨r, hr, rfl, hrpk⟩ (orGeneral_ok.mp hspark) rfl, ?_⟩
      rw [getSparkAccountMode, hpk]
      exact Option.some_ne_none _
  | none =>
      simp only [hpk] at hspark
      refine Or.inr ⟨_, addsMode_of_new ?_ (orGeneral_ok.mp hspark) rfl⟩
      intro y hy hyid
      exact hfresh .spark (inv.spark_provider ⟨y, hy, of_decide_eq_true hyid, rfl⟩)

/-! ## Operations on other tables -/

theorem deleteSparkRegistration_modes {domain pk identifier : String}
    {claim : Option StatementClaim}
    (h : deleteSparkRegistration ctx domain pk identifier claim s = .ok s') : KeepsModes s s' := by
  obtain ⟨s₁, hclaim, h⟩ := bind_ok.mp h
  obtain ⟨hs₁, _⟩ := insertStatementClaim_ok hclaim
  have hrows : s₁.sparkAccounts = s.sparkAccounts := by rw [hs₁]
  split at h
  · exact nomatch h
  · obtain ⟨_, _, h⟩ := bind_ok.mp h
    obtain rfl := Except.ok.inj h
    exact KeepsModes.of_rows hrows

theorem createBlinkAccount_modes {account : NewBlinkAccount}
    (h : createBlinkAccount ctx account s = .ok s') : KeepsModes s s' := by
  unfold createBlinkAccount at h
  simp only at h
  split at h
  · cases h
  · obtain ⟨_, _, h⟩ := bind_ok.mp h
    obtain ⟨_, _, h⟩ := bind_ok.mp h
    obtain ⟨_, _, h⟩ := bind_ok.mp h
    obtain ⟨_, _, h⟩ := bind_ok.mp h
    obtain ⟨_, _, h⟩ := bind_ok.mp h
    obtain rfl := Except.ok.inj h
    exact KeepsModes.of_rows rfl

theorem updateBlinkDefaultWallet_modes {blinkAccountId : String} {wallet : WalletKind}
    {out : UpdatedBlinkAccount}
    (h : updateBlinkDefaultWallet ctx blinkAccountId wallet s = .ok (out, s')) :
    KeepsModes s s' := by
  unfold updateBlinkDefaultWallet at h
  simp only at h
  split at h
  · cases h
  · obtain ⟨_, rfl⟩ := Prod.mk.inj (Except.ok.inj h)
    exact KeepsModes.of_rows rfl

/-! ## The three writes -/

/-- An update of mode columns acts on the record of the pubkey it names. -/
theorem getSparkAccountMode_updateSpark {p : SparkAccount → Bool} {f : SparkAccount → SparkAccount}
    (hf : ∀ r, (f r).accountId = r.accountId ∧ (f r).pubkey = r.pubkey)
    (P : SparkAccountMode → Prop) [DecidablePred P] (g : SparkAccountMode → SparkAccountMode)
    (hp : ∀ r, p r = true ↔ P r.modeRecord) (hg : ∀ r, (f r).modeRecord = g r.modeRecord) :
    (s.updateSpark p f hf).getSparkAccountMode pubkey =
      (s.getSparkAccountMode pubkey).map fun record => if P record then g record else record := by
  have hpk : ∀ r, (Table.onRow p f r).pubkey = r.pubkey := by
    intro r
    unfold Table.onRow
    split
    · exact (hf r).2
    · rfl
  have hfind : (s.updateSpark p f hf).accountOfPubkey pubkey =
      (s.accountOfPubkey pubkey).map (Table.onRow p f) := by
    show (s.sparkAccounts.rows.map (Table.onRow p f)).find? _ = _
    rw [List.find?_map]
    congr 1
    refine congrArg (fun q => List.find? q s.sparkAccounts.rows) (funext fun r => ?_)
    show decide ((Table.onRow p f r).pubkey = pubkey) = decide (r.pubkey = pubkey)
    rw [hpk]
  unfold getSparkAccountMode
  rw [hfind, Option.map_map, Option.map_map]
  refine congrArg (fun F => Option.map F _) (funext fun r => ?_)
  show (Table.onRow p f r).modeRecord = if P r.modeRecord then g r.modeRecord else r.modeRecord
  unfold Table.onRow
  by_cases hpr : p r = true
  · rw [if_pos hpr, if_pos ((hp r).mp hpr), hg]
  · rw [if_neg hpr, if_neg fun h => hpr ((hp r).mpr h)]

theorem refreshSparkCountryEvidence_modes {pk country : String} :
    (refreshSparkCountryEvidence ctx pk country s).getSparkAccountMode pubkey =
      (s.getSparkAccountMode pubkey).map fun record =>
        if record.pubkey = pk ∧ record.mode = some .enhanced then
          refreshCountry ctx.now country record else record := by
  unfold refreshSparkCountryEvidence
  rw [getSparkAccountMode_updateSpark _ (fun record => record.pubkey = pk ∧
    record.mode = some .enhanced) (refreshCountry ctx.now country)]
  · intro r
    simp [SparkAccount.modeRecord]
  · exact fun _ => rfl

theorem setSparkModeEnhancedIfUnset_modes {pk : String} :
    (setSparkModeEnhancedIfUnset ctx pk s).getSparkAccountMode pubkey =
      (s.getSparkAccountMode pubkey).map fun record =>
        if record.pubkey = pk ∧ record.mode = none then fillMode ctx.now record else record := by
  unfold setSparkModeEnhancedIfUnset
  rw [getSparkAccountMode_updateSpark _ (fun record => record.pubkey = pk ∧ record.mode = none)
    (fillMode ctx.now)]
  · intro r
    simp [SparkAccount.modeRecord]
  · exact fun _ => rfl

/-- The condition of the guarded `UPDATE`. -/
theorem named_iff {update : SparkModeUpdate} {r : SparkAccount} :
    (decide (r.pubkey = update.pubkey) &&
        r.modeLastTimestamp.all fun t => t < update.clientTimestamp) = true ↔
      r.modeRecord.pubkey = update.pubkey ∧ r.modeRecord.OlderThan update.clientTimestamp := by
  rw [Bool.and_eq_true, decide_eq_true_eq, olderThan_iff]
  exact Iff.rfl

theorem updateSparkMode_modes {update : SparkModeUpdate} :
    (updateSparkMode ctx update s).2.getSparkAccountMode pubkey =
      (s.getSparkAccountMode pubkey).map fun record =>
        if record.pubkey = update.pubkey ∧ record.OlderThan update.clientTimestamp then
          acceptMode ctx.now update record else record := by
  unfold updateSparkMode
  rw [getSparkAccountMode_updateSpark _ (fun record => record.pubkey = update.pubkey ∧
    record.OlderThan update.clientTimestamp) (acceptMode ctx.now update)]
  · exact fun _ => named_iff
  · exact fun _ => rfl

/-- The guarded `UPDATE` counts a row if the stored anchor is older. -/
theorem updateSparkMode_written {update : SparkModeUpdate} :
    (updateSparkMode ctx update s).1 = true ↔
      ∃ record, s.getSparkAccountMode update.pubkey = some record ∧
        record.OlderThan update.clientTimestamp := by
  show decide (s.sparkAccounts.affected _ ≠ 0) = true ↔ _
  rw [decide_eq_true_eq, ne_eq, Table.affected_eq_zero]
  constructor
  · intro h
    push Not at h
    obtain ⟨r, hr, hnamed⟩ := h
    obtain ⟨hpk, hold⟩ := named_iff.mp hnamed
    exact ⟨r.modeRecord, getSparkAccountMode_eq_some.mpr ⟨⟨r, hr, rfl⟩, hpk⟩, hold⟩
  · intro ⟨record, hget, hold⟩ hnone
    obtain ⟨⟨r, hr, rfl⟩, hpk⟩ := getSparkAccountMode_eq_some.mp hget
    exact hnone r hr (named_iff.mpr ⟨hpk, hold⟩)

/-! ## What changes nothing -/

theorem updateSpark_eq_self {p : SparkAccount → Bool} {f : SparkAccount → SparkAccount}
    (hf : ∀ r, (f r).accountId = r.accountId ∧ (f r).pubkey = r.pubkey)
    (h : ∀ r ∈ s.sparkAccounts, p r ≠ true) : s.updateSpark p f hf = s :=
  congrArg (fun sparkAccounts => { s with sparkAccounts }) (Table.modify_eq_self h)

/-- A refused `UPDATE` writes no row. -/
theorem updateSparkMode_of_refused {update : SparkModeUpdate}
    (h : (updateSparkMode ctx update s).1 = false) : (updateSparkMode ctx update s).2 = s := by
  have hnone : s.sparkAccounts.affected (fun r => r.pubkey = update.pubkey &&
      r.modeLastTimestamp.all fun t => t < update.clientTimestamp) = 0 :=
    of_not_not (of_decide_eq_false h)
  unfold updateSparkMode
  refine updateSpark_eq_self ?_ (Table.affected_eq_zero.mp hnone)
  exact fun _ => ⟨rfl, rfl⟩

/-- A first contact that lost writes no row. -/
theorem insertSparkAccount_of_stored (hstored : s.getSparkAccountMode pubkey ≠ none)
    (h : insertSparkAccount ctx pubkey s = .ok s') : s' = s := by
  obtain ⟨accounts, _, h⟩ := bind_ok.mp h
  cases hpk : s.accountOfPubkey pubkey with
  | some r =>
      rw [hpk] at h
      exact (Except.ok.inj h).symm
  | none =>
      rw [getSparkAccountMode, hpk] at hstored
      exact absurd rfl hstored

end AccountStore

end BlinkLnurl
