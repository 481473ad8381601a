import BlinkLnurl.Repository.AccountEffects

/-!
# One lemma for each account operation

The effect of every operation that succeeds, in the terms of
`AccountEffects`. An operation that fails has no effect by its type.
-/

namespace BlinkLnurl

open Rel

namespace AccountStore

variable {ctx : Ctx} {s s' : AccountStore}

/-! ## Spark accounts -/

theorem addsSpark_of_insert {id pk : String} {now : Int} {accounts : Table Account}
    {sparkAccounts : Table SparkAccount}
    (ha : s.accounts.insert ⟨id, .spark, now, now⟩ = some accounts)
    (hs : s.sparkAccounts.insert (newSparkAccount id pk now) = some sparkAccounts) :
    AddsSpark s { s with accounts, sparkAccounts } id pk where
  fresh := by
    rintro p ⟨a, hmem, hid, _⟩
    exact (Table.insert_eq_some ha).2 a hmem hid
  unowned := by
    rintro id' ⟨r, hmem, _, hpk⟩
    exact (Table.insert_eq_some hs).2 r hmem (Or.inr hpk)
  provider := by
    intro id' p
    constructor
    · rintro ⟨a, hmem, hid, hp⟩
      rcases (Table.mem_insert ha).mp hmem with hmem | rfl
      · exact Or.inl ⟨a, hmem, hid, hp⟩
      · exact Or.inr ⟨hid.symm, hp.symm⟩
    · rintro (⟨a, hmem, hid, hp⟩ | ⟨rfl, rfl⟩)
      · exact ⟨a, (Table.mem_insert ha).mpr (Or.inl hmem), hid, hp⟩
      · exact ⟨_, (Table.mem_insert ha).mpr (Or.inr rfl), rfl, rfl⟩
  spark := by
    intro id' pk'
    constructor
    · rintro ⟨r, hmem, hid, hp⟩
      rcases (Table.mem_insert hs).mp hmem with hmem | rfl
      · exact Or.inl ⟨r, hmem, hid, hp⟩
      · exact Or.inr ⟨hid.symm, hp.symm⟩
    · rintro (⟨r, hmem, hid, hp⟩ | ⟨rfl, rfl⟩)
      · exact ⟨r, (Table.mem_insert hs).mpr (Or.inl hmem), hid, hp⟩
      · exact ⟨_, (Table.mem_insert hs).mpr (Or.inr rfl), rfl, rfl⟩
  blink := fun _ => Iff.rfl

theorem insertSparkRows_ok {id pk : String} {now : Int} (h : insertSparkRows id pk now s = .ok s') :
    AddsSpark s s' id pk ∧ s'.accountIdentifiers = s.accountIdentifiers ∧
      s'.usedSignedMessages = s.usedSignedMessages := by
  obtain ⟨accounts, ha, h⟩ := bind_ok.mp h
  obtain ⟨sparkAccounts, hs, h⟩ := bind_ok.mp h
  cases h
  exact ⟨addsSpark_of_insert (orGeneral_ok.mp ha) (orGeneral_ok.mp hs), rfl, rfl⟩

theorem insertSparkAccount_ok {pk : String} (h : insertSparkAccount ctx pk s = .ok s') :
    (s' = s ∨ AddsSpark s s' ctx.generatedId pk) ∧ s'.accountIdentifiers = s.accountIdentifiers ∧
      s'.usedSignedMessages = s.usedSignedMessages := by
  obtain ⟨accounts, ha, h⟩ := bind_ok.mp h
  split at h
  · cases h
    exact ⟨Or.inl rfl, rfl, rfl⟩
  · obtain ⟨sparkAccounts, hs, h⟩ := bind_ok.mp h
    cases h
    exact ⟨Or.inr (addsSpark_of_insert (orGeneral_ok.mp ha) (orGeneral_ok.mp hs)), rfl, rfl⟩

theorem SameAccounts.refl (s : AccountStore) : SameAccounts s s :=
  SameAccounts.of_tables rfl rfl rfl

theorem SameAccounts.updateSpark {p : SparkAccount → Bool} {f : SparkAccount → SparkAccount}
    (hf : ∀ r, (f r).accountId = r.accountId ∧ (f r).pubkey = r.pubkey) :
    SameAccounts s (s.updateSpark p f hf) where
  provider := fun _ _ => Iff.rfl
  blink := fun _ => Iff.rfl
  spark := fun id pk => by
    have hkeys : ∀ r, (Table.onRow p f r).accountId = r.accountId ∧
        (Table.onRow p f r).pubkey = r.pubkey := by
      intro r
      unfold Table.onRow
      split
      · exact hf r
      · exact ⟨rfl, rfl⟩
    constructor
    · rintro ⟨x, hx, hid, hpk⟩
      obtain ⟨r, hr, rfl⟩ := List.mem_map.mp hx
      exact ⟨r, hr, (hkeys r).1.symm.trans hid, (hkeys r).2.symm.trans hpk⟩
    · rintro ⟨r, hr, hid, hpk⟩
      refine ⟨Table.onRow p f r, ?_, (hkeys r).1.trans hid, (hkeys r).2.trans hpk⟩
      show Table.onRow p f r ∈ s.sparkAccounts.rows.map (Table.onRow p f)
      exact List.mem_map.mpr ⟨r, hr, rfl⟩

theorem refreshSparkCountryEvidence_same {pubkey country : String} :
    SameAccounts s (refreshSparkCountryEvidence ctx pubkey country s) := by
  apply SameAccounts.updateSpark

theorem setSparkModeEnhancedIfUnset_same {pubkey : String} :
    SameAccounts s (setSparkModeEnhancedIfUnset ctx pubkey s) := by
  apply SameAccounts.updateSpark

theorem updateSparkMode_same {update : SparkModeUpdate} :
    SameAccounts s (updateSparkMode ctx update s).2 := by
  apply SameAccounts.updateSpark
  exact fun _ => ⟨rfl, rfl⟩

/-- `upsert_spark_mode` can only make a Spark account appear, also when it
ends in an error. -/
theorem upsertSparkMode_effect {update : SparkModeUpdate} :
    (SameAccounts s (upsertSparkMode ctx update s).2 ∨
      AddsSpark s (upsertSparkMode ctx update s).2 ctx.generatedId update.pubkey) ∧
      (upsertSparkMode ctx update s).2.accountIdentifiers = s.accountIdentifiers := by
  -- what the guarded update does after the account is there
  have hrest : ∀ {s₁ s₂ : AccountStore} {written}, updateSparkMode ctx update s₁ = (written, s₂) →
      SameAccounts s₁ s₂ ∧ s₂.accountIdentifiers = s₁.accountIdentifiers := by
    intro s₁ s₂ written hwrite
    have hsame : SameAccounts s₁ (updateSparkMode ctx update s₁).2 := updateSparkMode_same
    have hids : (updateSparkMode ctx update s₁).2.accountIdentifiers = s₁.accountIdentifiers := rfl
    rw [hwrite] at hsame hids
    exact ⟨hsame, hids⟩
  unfold upsertSparkMode
  cases hfound : s.sparkAccountIdByPubkey update.pubkey with
  | some id =>
      rcases hwrite : updateSparkMode ctx update s with ⟨written, s₂⟩
      obtain ⟨hsame, hids⟩ := hrest hwrite
      cases written <;> simp only [hwrite] <;> exact ⟨Or.inl hsame, hids⟩
  | none =>
      cases hins : insertSparkAccount ctx update.pubkey s with
      | error e => exact ⟨Or.inl (SameAccounts.refl s), rfl⟩
      | ok s₁ =>
          rcases hwrite : updateSparkMode ctx update s₁ with ⟨written, s₂⟩
          obtain ⟨hsame, hids⟩ := hrest hwrite
          obtain ⟨hadds, hids₁, _⟩ := insertSparkAccount_ok hins
          have hall : (SameAccounts s s₂ ∨ AddsSpark s s₂ ctx.generatedId update.pubkey) ∧
              s₂.accountIdentifiers = s.accountIdentifiers := by
            refine ⟨?_, hids.trans hids₁⟩
            rcases hadds with rfl | adds
            · exact Or.inl hsame
            · refine Or.inr
                ⟨adds.fresh, adds.unowned, fun id p => ?_, fun id pk => ?_, fun id => ?_⟩
              · exact (hsame.provider id p).trans (adds.provider id p)
              · exact (hsame.spark id pk).trans (adds.spark id pk)
              · exact (hsame.blink id).trans (adds.blink id)
          cases written <;> simp only [hwrite] <;> exact hall

/-! ## Identifiers -/

theorem mem_deleteOtherUsernames {accountId domain identifier : String}
    {ids : Table AccountIdentifier} {x : AccountIdentifier} :
    x ∈ deleteOtherUsernames accountId domain identifier ids ↔ x ∈ ids ∧
      ¬ (x.accountId = accountId ∧ x.domain = domain ∧ x.identifierKind = .username ∧
        x.identifier ≠ identifier) := by
  unfold deleteOtherUsernames
  rw [Table.mem_delete]
  simp only [Bool.and_eq_false_iff, decide_eq_false_iff_not, bne_eq_false_iff_eq, ne_eq, not_and,
    not_not]
  grind

/-- The two statements that end a registration. -/
theorem assigns_of_register {accountId domain identifier description : String} {now : Int}
    {ids ids' : Table AccountIdentifier}
    (hown : ∀ x ∈ ids, x.domain = domain → x.identifier = identifier → x.accountId = accountId)
    (h : (deleteOtherUsernames accountId domain identifier ids).insertOrUpdate
      (fun r => r.accountId = accountId && r.domain = domain && r.identifier = identifier)
      (fun r => { r with identifierKind := .username, description, updatedAt := now })
      ⟨accountId, domain, identifier, .username, description, now, now⟩ = some ids') :
    ∃ row : AccountIdentifier, row.accountId = accountId ∧ row.domain = domain ∧
      row.identifier = identifier ∧ row.identifierKind = .username ∧ Assigns ids ids' row := by
  have hmem := fun x => Table.mem_insertOrUpdate (x := x) h
  by_cases hex : ∃ y ∈ ids, y.domain = domain ∧ y.identifier = identifier
  · -- the account re-registers a name it holds
    obtain ⟨y, hy, hyd, hyi⟩ := hex
    have hya := hown y hy hyd hyi
    refine ⟨{ y with identifierKind := .username, description, updatedAt := now }, hya, hyd, hyi,
      rfl, fun x => ?_⟩
    rw [hmem x]
    have hy' : y ∈ deleteOtherUsernames accountId domain identifier ids :=
      mem_deleteOtherUsernames.mpr ⟨hy, fun hc => hc.2.2.2 hyi⟩
    constructor
    · rintro (⟨z, hz, rfl⟩ | ⟨_, hno⟩)
      · obtain ⟨hzm, hzn⟩ := mem_deleteOtherUsernames.mp hz
        unfold Table.onRow
        split
        · rename_i hp
          simp only [Bool.and_eq_true, decide_eq_true_eq] at hp
          have hzy : z = y := Table.eq_of_key hzm hy
            (Prod.ext (hp.1.2.trans hyd.symm) (hp.2.trans hyi.symm))
          exact Or.inl (by rw [hzy])
        · rename_i hp
          simp only [Bool.and_eq_true, decide_eq_true_eq] at hp
          refine Or.inr ⟨hzm, fun hk => ?_, fun hc => ?_⟩
          · have hkd : z.domain = y.domain := congrArg Prod.fst hk
            have hki : z.identifier = y.identifier := congrArg Prod.snd hk
            exact hp ⟨⟨hown z hzm (hkd.trans hyd) (hki.trans hyi), hkd.trans hyd⟩, hki.trans hyi⟩
          · have hkey := hzn
            have hza : z.accountId = accountId := hc.1.trans hya
            have hzd : z.domain = domain := hc.2.1.trans hyd
            have hzi : z.identifier = identifier := by
              by_contra hne
              exact hkey ⟨hza, hzd, hc.2.2, hne⟩
            exact hp ⟨⟨hza, hzd⟩, hzi⟩
      · exact absurd (by simp [hya, hyd, hyi]) (hno y hy')
    · rintro (rfl | ⟨hx, hk, hn⟩)
      · refine Or.inl ⟨y, hy', ?_⟩
        simp [Table.onRow, hya, hyd, hyi]
      · refine Or.inl ⟨x, mem_deleteOtherUsernames.mpr ⟨hx, fun hc => hn ?_⟩, ?_⟩
        · exact ⟨hc.1.trans hya.symm, hc.2.1.trans hyd.symm, hc.2.2.1⟩
        · refine if_neg fun hp => hk ?_
          simp only [Bool.and_eq_true, decide_eq_true_eq] at hp
          exact Prod.ext (hp.1.2.trans hyd.symm) (hp.2.trans hyi.symm)
  · -- a new name
    refine ⟨⟨accountId, domain, identifier, .username, description, now, now⟩, rfl, rfl, rfl, rfl,
      fun x => ?_⟩
    have hno : ∀ y ∈ ids, ¬ (y.domain = domain ∧ y.identifier = identifier) :=
      fun y hy hc => hex ⟨y, hy, hc⟩
    have hkeep : ∀ y ∈ ids, Table.onRow
        (fun r => r.accountId = accountId && r.domain = domain && r.identifier = identifier)
        (fun r : AccountIdentifier =>
          { r with identifierKind := .username, description, updatedAt := now }) y = y := by
      intro y hy
      refine if_neg fun hp => hno y hy ?_
      simp only [Bool.and_eq_true, decide_eq_true_eq] at hp
      exact ⟨hp.1.2, hp.2⟩
    rw [hmem x]
    constructor
    · rintro (⟨z, hz, rfl⟩ | ⟨rfl, _⟩)
      · obtain ⟨hzm, hzn⟩ := mem_deleteOtherUsernames.mp hz
        rw [hkeep z hzm]
        refine Or.inr ⟨hzm, fun hk => hno z hzm ⟨congrArg Prod.fst hk, congrArg Prod.snd hk⟩, ?_⟩
        intro hc
        exact hzn ⟨hc.1, hc.2.1, hc.2.2, fun hi => hno z hzm ⟨hc.2.1, hi⟩⟩
      · exact Or.inl rfl
    · rintro (rfl | ⟨hx, _, hn⟩)
      · refine Or.inr ⟨rfl, fun y hy hp => ?_⟩
        simp only [Bool.and_eq_true, decide_eq_true_eq] at hp
        exact hno y (mem_deleteOtherUsernames.mp hy).1 ⟨hp.1.2, hp.2⟩
      · refine Or.inl ⟨x, mem_deleteOtherUsernames.mpr ⟨hx, fun hc => ?_⟩, hkeep x hx⟩
        exact hn ⟨hc.1, hc.2.1, hc.2.2.1⟩

/-- The two statements that end a transfer. -/
theorem assigns_of_handOver {source dest domain identifier description : String} {now : Int}
    {ids : Table AccountIdentifier} {y : AccountIdentifier} (hy : y ∈ ids)
    (hya : y.accountId = source) (hyd : y.domain = domain) (hyi : y.identifier = identifier) :
    Assigns ids
      (deleteOtherUsernames dest domain identifier
        (ids.update
          (fun r => r.domain = domain && r.identifier = identifier && r.accountId = source)
          (fun r => { r with accountId := dest, description, updatedAt := now }) fun _ => rfl))
      { y with accountId := dest, description, updatedAt := now } := by
  intro x
  have hkey : ∀ z ∈ ids, z.domain = domain → z.identifier = identifier → z = y := fun z hz hd hi =>
    Table.eq_of_key hz hy (Prod.ext (hd.trans hyd.symm) (hi.trans hyi.symm))
  rw [mem_deleteOtherUsernames, Table.mem_update]
  constructor
  · rintro ⟨⟨z, hz, rfl⟩, hn⟩
    unfold Table.onRow at hn ⊢
    split at hn
    · rename_i hp
      rw [if_pos hp]
      simp only [Bool.and_eq_true, decide_eq_true_eq] at hp
      exact Or.inl (by rw [hkey z hz hp.1.1 hp.1.2])
    · rename_i hp
      rw [if_neg hp]
      simp only [Bool.and_eq_true, decide_eq_true_eq] at hp
      have hnot : ¬ (z.domain = domain ∧ z.identifier = identifier) := by
        rintro ⟨hd, hi⟩
        exact hp ⟨⟨hd, hi⟩, by rw [hkey z hz hd hi]; exact hya⟩
      refine Or.inr ⟨hz, fun hk => hnot ?_, fun hc => hn ?_⟩
      · exact ⟨(congrArg Prod.fst hk).trans hyd, (congrArg Prod.snd hk).trans hyi⟩
      · have hzd : z.domain = domain := hc.2.1.trans hyd
        exact ⟨hc.1, hzd, hc.2.2, fun hi => hnot ⟨hzd, hi⟩⟩
  · rintro (rfl | ⟨hx, hk, hn⟩)
    · refine ⟨⟨y, hy, ?_⟩, fun hc => hc.2.2.2 hyi⟩
      simp [Table.onRow, hya, hyd, hyi]
    · refine ⟨⟨x, hx, if_neg fun hp => hk ?_⟩, fun hc => hn ?_⟩
      · simp only [Bool.and_eq_true, decide_eq_true_eq] at hp
        exact Prod.ext (hp.1.1.trans hyd.symm) (hp.1.2.trans hyi.symm)
      · exact ⟨hc.1, hc.2.1.trans hyd.symm, hc.2.2.1⟩

/-! ## Transactions -/

/-- A registration assigns the name to the account of its pubkey, and takes
the name from nobody. -/
structure Registers (s s' : AccountStore) (registration : NewSparkRegistration)
    (row : AccountIdentifier) : Prop where
  ensures : EnsuresSpark s s' row.accountId registration.pubkey
  assigns : Assigns s.accountIdentifiers s'.accountIdentifiers row
  domain : row.domain = registration.identifier.domain
  identifier : row.identifier = registration.identifier.identifier
  kind : row.identifierKind = .username
  own : ∀ x ∈ s.accountIdentifiers, Keyed.key x = Keyed.key row → x.accountId = row.accountId
  claimed : Claimed registration.claim s.usedSignedMessages s'.usedSignedMessages

section Register

variable {registration : NewSparkRegistration} {id pk : String} {sparkAccounts : Table SparkAccount}

/-- A registration for a pubkey that has an account rewrites its rows with the
keys they already have. -/
theorem ensuresSpark_of_stored (inv : RepInv s) (hspark : s.HasSpark id pk)
    (hs : s.sparkAccounts.insertOrUpdate (fun r => r.accountId = id)
      (fun r => { r with pubkey := pk, updatedAt := ctx.now })
      (newSparkAccount id pk ctx.now) = some sparkAccounts)
    (hprov' : s'.accounts = s.accounts.upsert ⟨id, .spark, ctx.now, ctx.now⟩
      (fun a => { a with provider := .spark, updatedAt := ctx.now }) fun _ => rfl)
    (hspark' : s'.sparkAccounts = sparkAccounts) (hblink' : s'.blinkAccounts = s.blinkAccounts) :
    EnsuresSpark s s' id pk := by
  have hprov := inv.spark_provider hspark
  refine .stored hprov hspark ⟨fun id' p => ?_, fun id' pk' => ?_, fun id' => ?_⟩
  · rw [hasProvider_iff, hasProvider_iff, hprov', Table.get_upsert]
    split
    · rename_i hid
      have hid' : id' = id := hid
      obtain ⟨a, ha, hp⟩ := Option.map_eq_some_iff.mp (hasProvider_iff.mp hprov)
      rw [hid', ha]
      simp [hp]
    · exact Iff.rfl
  · have hmem := fun x => Table.mem_insertOrUpdate (x := x) hs
    obtain ⟨r, hr, hrid, hrpk⟩ := hspark
    have hsame : ∀ y ∈ s.sparkAccounts, y.accountId = id → y.pubkey = pk := by
      intro y hy hyid
      rw [Table.eq_of_clash hy hr (Or.inl (hyid.trans hrid.symm))]
      exact hrpk
    have hkeys : ∀ y ∈ s.sparkAccounts,
        (Table.onRow (fun r => decide (r.accountId = id))
          (fun r => { r with pubkey := pk, updatedAt := ctx.now }) y).accountId = y.accountId ∧
        (Table.onRow (fun r => decide (r.accountId = id))
          (fun r => { r with pubkey := pk, updatedAt := ctx.now }) y).pubkey = y.pubkey := by
      intro y hy
      unfold Table.onRow
      split
      · rename_i hk
        exact ⟨rfl, (hsame y hy (of_decide_eq_true hk)).symm⟩
      · exact ⟨rfl, rfl⟩
    unfold HasSpark
    rw [hspark']
    constructor
    · rintro ⟨x, hx, hid, hp⟩
      rcases (hmem x).mp hx with ⟨y, hy, rfl⟩ | ⟨_, hno⟩
      · exact ⟨y, hy, (hkeys y hy).1.symm.trans hid, (hkeys y hy).2.symm.trans hp⟩
      · exact absurd (decide_eq_true hrid) (hno r hr)
    · rintro ⟨y, hy, hid, hp⟩
      exact ⟨_, (hmem _).mpr (Or.inl ⟨y, hy, rfl⟩), (hkeys y hy).1.trans hid,
        (hkeys y hy).2.trans hp⟩
  · unfold HasBlink
    rw [hblink']

/-- A registration for a new pubkey adds its account. -/
theorem ensuresSpark_of_new (inv : RepInv s) (hfresh : ∀ p, ¬ s.HasProvider id p)
    (hunowned : ∀ id', ¬ s.HasSpark id' pk)
    (hs : s.sparkAccounts.insertOrUpdate (fun r => r.accountId = id)
      (fun r => { r with pubkey := pk, updatedAt := ctx.now })
      (newSparkAccount id pk ctx.now) = some sparkAccounts)
    (hprov' : s'.accounts = s.accounts.upsert ⟨id, .spark, ctx.now, ctx.now⟩
      (fun a => { a with provider := .spark, updatedAt := ctx.now }) fun _ => rfl)
    (hspark' : s'.sparkAccounts = sparkAccounts) (hblink' : s'.blinkAccounts = s.blinkAccounts) :
    EnsuresSpark s s' id pk := by
  have hnospk : ∀ y ∈ s.sparkAccounts, decide (y.accountId = id) ≠ true :=
    fun y hy hid => hfresh .spark (inv.spark_provider ⟨y, hy, of_decide_eq_true hid, rfl⟩)
  refine .added ⟨hfresh, hunowned, fun id' p => ?_, fun id' pk' => ?_, fun id' => ?_⟩
  · have hnone : s.accounts.get id = none :=
      Table.get_eq_none.mpr fun a ha hid => hfresh a.provider ⟨a, ha, hid, rfl⟩
    rw [hasProvider_iff, hasProvider_iff, hprov', Table.get_upsert]
    split
    · rename_i hid
      have hid' : id' = id := hid
      rw [hid', hnone]
      simp [eq_comm]
    · rename_i hid
      have hid' : ¬ id' = id := hid
      simp [hid']
  · have hmem := fun x => Table.mem_insertOrUpdate (x := x) hs
    unfold HasSpark
    rw [hspark']
    constructor
    · rintro ⟨x, hx, hid, hp⟩
      rcases (hmem x).mp hx with ⟨y, hy, rfl⟩ | ⟨rfl, _⟩
      · rw [Table.onRow, if_neg (hnospk y hy)] at hid hp
        exact Or.inl ⟨y, hy, hid, hp⟩
      · exact Or.inr ⟨hid.symm, hp.symm⟩
    · rintro (⟨y, hy, hid, hp⟩ | ⟨rfl, rfl⟩)
      · exact ⟨y, (hmem y).mpr (Or.inl ⟨y, hy, if_neg (hnospk y hy)⟩), hid, hp⟩
      · exact ⟨_, (hmem _).mpr (Or.inr ⟨rfl, hnospk⟩), rfl, rfl⟩
  · unfold HasBlink
    rw [hblink']

theorem upsertSparkRegistration_ok (inv : RepInv s) (hnone : registration.accountId = none)
    (hfresh : ∀ p, ¬ s.HasProvider ctx.generatedId p)
    (h : upsertSparkRegistration ctx registration s = .ok s') :
    ∃ row, Registers s s' registration row := by
  obtain ⟨_, hvalid, h⟩ := bind_ok.mp h
  obtain ⟨s₁, hclaim, h⟩ := bind_ok.mp h
  obtain ⟨hs₁, hclaimed⟩ := insertStatementClaim_ok hclaim
  have hkind : registration.identifier.identifierKind = .username := by
    unfold NewSparkRegistration.validate at hvalid
    cases hk : registration.identifier.identifierKind with
    | username => rfl
    | phone => rw [hk] at hvalid; cases hvalid
  -- `s₁` and `s` differ in the used statements only
  have hacc : s₁.accounts = s.accounts := by rw [hs₁]
  have hspk : s₁.sparkAccounts = s.sparkAccounts := by rw [hs₁]
  have hblk : s₁.blinkAccounts = s.blinkAccounts := by rw [hs₁]
  have hids : s₁.accountIdentifiers = s.accountIdentifiers := by rw [hs₁]
  have haid : registrationAccountId ctx registration s₁ =
      registrationAccountId ctx registration s := by
    unfold registrationAccountId accountOfPubkey
    rw [hspk]
  simp only [hacc, hspk, hids, haid, hkind] at h
  obtain ⟨_, _, h⟩ := bind_ok.mp h
  obtain ⟨_, howner, h⟩ := bind_ok.mp h
  obtain ⟨_, _, h⟩ := bind_ok.mp h
  obtain ⟨sparkAccounts, hspark, h⟩ := bind_ok.mp h
  obtain ⟨identifiers, hidents, h⟩ := bind_ok.mp h
  cases h
  have hown : ∀ x ∈ s.accountIdentifiers, x.domain = registration.identifier.domain →
      x.identifier = registration.identifier.identifier →
      x.accountId = registrationAccountId ctx registration s := by
    intro x hx hd hi
    exact ensure_ok.mp howner x (Table.get_eq_some.mpr ⟨hx, Prod.ext hd hi⟩)
  obtain ⟨row, hra, hrd, hri, hrk, hassigns⟩ := assigns_of_register hown (orGeneral_ok.mp hidents)
  refine ⟨row, ?_, hassigns, hrd, hri, hrk, ?_, hclaimed⟩
  · rw [hra]
    unfold registrationAccountId at hspark ⊢
    rw [hnone] at hspark ⊢
    cases hpk : s.accountOfPubkey registration.pubkey with
    | some r =>
        simp only [hpk] at hspark ⊢
        obtain ⟨hr, hrpk⟩ := accountOfPubkey_eq_some.mp hpk
        exact ensuresSpark_of_stored inv ⟨r, hr, rfl, hrpk⟩ (orGeneral_ok.mp hspark) rfl rfl hblk
    | none =>
        simp only [hpk] at hspark ⊢
        exact ensuresSpark_of_new inv hfresh (accountOfPubkey_eq_none.mp hpk)
          (orGeneral_ok.mp hspark) rfl rfl hblk
  · intro x hx hk
    rw [hra]
    exact hown x hx ((congrArg Prod.fst hk).trans hrd) ((congrArg Prod.snd hk).trans hri)

end Register

/-- A transfer assigns the identifier, taken from `source`, to the account of
the destination pubkey. -/
structure HandsOver (s s' : AccountStore) (domain identifier source destination : String)
    (row : AccountIdentifier) : Prop where
  ensures : EnsuresSpark s s' row.accountId destination
  assigns : Assigns s.accountIdentifiers s'.accountIdentifiers row
  domain : row.domain = domain
  identifier : row.identifier = identifier
  taken : ∃ x ∈ s.accountIdentifiers, Keyed.key x = Keyed.key row ∧ x.accountId = source ∧
    x.identifierKind = row.identifierKind

theorem destinationAccount_ok {pubkey : String} (inv : RepInv s) {id : String}
    (h : destinationAccount ctx pubkey s = .ok (id, s')) :
    EnsuresSpark s s' id pubkey ∧ s'.accountIdentifiers = s.accountIdentifiers ∧
      s'.usedSignedMessages = s.usedSignedMessages := by
  unfold destinationAccount at h
  cases hpk : s.accountOfPubkey pubkey with
  | some r =>
      obtain ⟨hr, hrpk⟩ := accountOfPubkey_eq_some.mp hpk
      have hspark : s.HasSpark r.accountId pubkey := ⟨r, hr, rfl, hrpk⟩
      obtain ⟨a, ha, hp⟩ :=
        Option.map_eq_some_iff.mp (hasProvider_iff.mp (inv.spark_provider hspark))
      simp only [hpk, Option.bind_some, ha, Option.map_some, hp] at h
      cases h
      exact ⟨.stored (inv.spark_provider hspark) hspark (SameAccounts.refl s), rfl, rfl⟩
  | none =>
      simp only [hpk, Option.bind_none] at h
      obtain ⟨s₁, hins, h⟩ := bind_ok.mp h
      cases h
      obtain ⟨adds, hids, hused⟩ := insertSparkRows_ok hins
      exact ⟨.added adds, hids, hused⟩

theorem handOver_ok {domain identifier source destination description : String} (inv : RepInv s)
    (h : handOver ctx domain identifier source destination description s = .ok s') :
    (∃ row, HandsOver s s' domain identifier source destination row) ∧
      s'.usedSignedMessages = s.usedSignedMessages := by
  obtain ⟨⟨dest, s₁⟩, hdest, h⟩ := bind_ok.mp h
  obtain ⟨hens, hids, hused⟩ := destinationAccount_ok inv hdest
  obtain ⟨_, hone, h⟩ := bind_ok.mp h
  cases h
  have hcount := ensure_ok.mp hone
  -- the update found a row, so the source holds the identifier
  obtain ⟨y, hy, hp⟩ : ∃ y ∈ s₁.accountIdentifiers,
      (y.domain = domain && y.identifier = identifier &&
      y.accountId = source) = true := by
    by_contra hno
    have hzero := Table.affected_eq_zero.mpr fun r hr hp => hno ⟨r, hr, hp⟩
    rw [hzero] at hcount
    cases hcount
  simp only [Bool.and_eq_true, decide_eq_true_eq] at hp
  rw [hids] at hy
  refine ⟨⟨{ y with accountId := dest, description, updatedAt := ctx.now }, ?_, ?_, hp.1.1, hp.1.2,
    ⟨y, hy, rfl, hp.2, rfl⟩⟩, hused⟩
  · cases hens with
    | stored provider spark same =>
        exact .stored provider spark ⟨same.provider, same.spark, same.blink⟩
    | added adds =>
        exact .added ⟨adds.fresh, adds.unowned, adds.provider, adds.spark, adds.blink⟩
  · simp only [hids]
    exact assigns_of_handOver hy hp.2 hp.1.1 hp.1.2

theorem transferIdentifier_ok {transfer : IdentifierTransfer} (inv : RepInv s)
    (h : transferIdentifier ctx transfer s = .ok s') :
    (∃ row, HandsOver s s' transfer.domain transfer.identifier transfer.sourceAccountId
      transfer.destinationSparkPubkey row) ∧
      s.HasProvider transfer.sourceAccountId .spark ∧
      Claimed transfer.claim s.usedSignedMessages s'.usedSignedMessages := by
  obtain ⟨s₁, hclaim, h⟩ := bind_ok.mp h
  obtain ⟨hs₁, hclaimed⟩ := insertStatementClaim_ok hclaim
  have hacc : s₁.accounts = s.accounts := by rw [hs₁]
  have hspk : s₁.sparkAccounts = s.sparkAccounts := by rw [hs₁]
  have hblk : s₁.blinkAccounts = s.blinkAccounts := by rw [hs₁]
  have hids : s₁.accountIdentifiers = s.accountIdentifiers := by rw [hs₁]
  obtain ⟨_, _, h⟩ := bind_ok.mp h
  obtain ⟨_, hsource, h⟩ := bind_ok.mp h
  have same : SameAccounts s s₁ := SameAccounts.of_tables hacc hspk hblk
  have inv₁ : RepInv s₁ := inv.same same fun x hx => hids ▸ hx
  obtain ⟨⟨row, hover⟩, hused⟩ := handOver_ok inv₁ h
  refine ⟨⟨row, ?_, ?_, hover.domain, hover.identifier, ?_⟩, ?_, ?_⟩
  · cases hover.ensures with
    | stored provider spark same' =>
        refine .stored ((same.provider _ _).mp provider) ((same.spark _ _).mp spark) ⟨?_, ?_, ?_⟩
        · exact fun id p => (same'.provider id p).trans (same.provider id p)
        · exact fun id pk => (same'.spark id pk).trans (same.spark id pk)
        · exact fun id => (same'.blink id).trans (same.blink id)
    | added adds =>
        refine .added ⟨?_, ?_, ?_, ?_, ?_⟩
        · exact fun p hp => adds.fresh p ((same.provider _ _).mpr hp)
        · exact fun id hid => adds.unowned id ((same.spark _ _).mpr hid)
        · exact fun id p => (adds.provider id p).trans (or_congr_left (same.provider id p))
        · exact fun id pk => (adds.spark id pk).trans (or_congr_left (same.spark id pk))
        · exact fun id => (adds.blink id).trans (same.blink id)
  · rw [← hids]
    exact hover.assigns
  · rw [← hids]
    exact hover.taken
  · rw [hasProvider_iff, ← hacc]
    exact (ensure_ok.mp hsource).1
  · rw [hused]
    exact hclaimed

theorem transferBlinkIdentifierToSpark_ok {transfer : BlinkToSparkIdentifierTransfer}
    (inv : RepInv s) (h : transferBlinkIdentifierToSpark ctx transfer s = .ok s') :
    (∃ row, HandsOver s s' transfer.domain transfer.identifier transfer.sourceAccountId
      transfer.destinationSparkPubkey row) ∧
      s.HasProvider transfer.sourceAccountId .blink ∧
      s'.usedSignedMessages = s.usedSignedMessages := by
  obtain ⟨_, _, h⟩ := bind_ok.mp h
  obtain ⟨_, hsource, h⟩ := bind_ok.mp h
  obtain ⟨hover, hused⟩ := handOver_ok inv h
  exact ⟨hover, hasProvider_iff.mpr (ensure_ok.mp hsource).1, hused⟩

/-- An unregister drops one row, which its pubkey's account held. -/
structure Releases (s s' : AccountStore) (domain pubkey identifier : String)
    (row : AccountIdentifier) : Prop where
  stored : row ∈ s.accountIdentifiers
  domain : row.domain = domain
  identifier : row.identifier = identifier
  owner : s.HasSpark row.accountId pubkey
  same : SameAccounts s s'
  identifiers : ∀ x, x ∈ s'.accountIdentifiers ↔ x ∈ s.accountIdentifiers ∧ x ≠ row

theorem deleteSparkRegistration_ok {domain pubkey identifier : String}
    {claim : Option StatementClaim}
    (h : deleteSparkRegistration ctx domain pubkey identifier claim s = .ok s') :
    (∃ row, Releases s s' domain pubkey identifier row) ∧
      Claimed claim s.usedSignedMessages s'.usedSignedMessages := by
  obtain ⟨s₁, hclaim, h⟩ := bind_ok.mp h
  obtain ⟨hs₁, hclaimed⟩ := insertStatementClaim_ok hclaim
  have hids : s₁.accountIdentifiers = s.accountIdentifiers := by rw [hs₁]
  have hspk : s₁.sparkAccounts = s.sparkAccounts := by rw [hs₁]
  split at h
  · cases h
  · rename_i spark hfound
    obtain ⟨hspark, hpk⟩ := accountOfPubkey_eq_some.mp hfound
    obtain ⟨_, hsome, h⟩ := bind_ok.mp h
    cases h
    obtain ⟨y, hy, hp⟩ : ∃ y ∈ s₁.accountIdentifiers, (y.accountId = spark.accountId &&
        y.domain = domain && y.identifier = identifier) = true := by
      by_contra hno
      exact ensure_ok.mp hsome (Table.affected_eq_zero.mpr fun r hr hp => hno ⟨r, hr, hp⟩)
    simp only [Bool.and_eq_true, decide_eq_true_eq] at hp
    rw [hids] at hy
    rw [hspk] at hspark
    refine ⟨⟨y, hy, hp.1.2, hp.2, ⟨spark, hspark, hp.1.1.symm, hpk⟩, ?_, ?_⟩, hclaimed⟩
    · exact SameAccounts.of_tables (by rw [hs₁]) hspk (by rw [hs₁])
    · intro x
      show x ∈ s₁.accountIdentifiers.delete _ ↔ _
      rw [hids, Table.mem_delete]
      refine and_congr_right fun hx => ?_
      constructor
      · rintro hno rfl
        simp [hp.1.1, hp.1.2, hp.2] at hno
      · intro hne
        by_contra hyes
        have hx' := eq_true_of_ne_false hyes
        simp only [Bool.and_eq_true, decide_eq_true_eq] at hx'
        exact hne (Table.eq_of_key hx hy
          (Prod.ext (hx'.1.2.trans hp.1.2.symm) (hx'.2.trans hp.2.symm)))

theorem insertIdentifiers_ok {id : String} {idents : List NewAccountIdentifier}
    {ids ids' : Table AccountIdentifier} (h : insertIdentifiers ctx id idents ids = .ok ids') :
    (∀ x ∈ ids, x ∈ ids') ∧ ∀ x ∈ ids', x ∈ ids ∨ x.accountId = id := by
  induction idents generalizing ids with
  | nil =>
      cases h
      exact ⟨fun _ hx => hx, fun _ hx => Or.inl hx⟩
  | cons ident rest ih =>
      obtain ⟨ids₁, hins, h⟩ := bind_ok.mp h
      obtain ⟨hkeep, honly⟩ := ih h
      have hmem := fun x => Table.mem_insert (x := x) (orGeneral_ok.mp hins)
      refine ⟨fun x hx => hkeep x ((hmem x).mpr (Or.inl hx)), fun x hx => ?_⟩
      rcases honly x hx with hx | hx
      · rcases (hmem x).mp hx with hx | rfl
        · exact Or.inl hx
        · exact Or.inr rfl
      · exact Or.inr hx

theorem createBlinkAccount_ok {account : NewBlinkAccount}
    (h : createBlinkAccount ctx account s = .ok s') :
    (∃ id, OpensBlink s s' id) ∧ s'.usedSignedMessages = s.usedSignedMessages := by
  unfold createBlinkAccount at h
  generalize account.accountId.getD ctx.generatedId = id at h
  simp only at h
  split at h
  · cases h
  · rename_i hnone
    obtain ⟨_, _, h⟩ := bind_ok.mp h
    obtain ⟨_, _, h⟩ := bind_ok.mp h
    obtain ⟨accounts, hacc, h⟩ := bind_ok.mp h
    obtain ⟨blinkAccounts, hblk, h⟩ := bind_ok.mp h
    obtain ⟨identifiers, hids, h⟩ := bind_ok.mp h
    cases h
    have ha := fun x => Table.mem_insert (x := x) (orGeneral_ok.mp hacc)
    have hb := fun x => Table.mem_insert (x := x) (orGeneral_ok.mp hblk)
    obtain ⟨hkeep, honly⟩ := insertIdentifiers_ok hids
    refine ⟨⟨id, ?_, fun id' p => ?_, fun _ _ => Iff.rfl, fun id' => ?_, hkeep, honly⟩, rfl⟩
    · rintro p ⟨a, hmem, hid, _⟩
      exact Table.get_eq_none.mp hnone a hmem hid
    · constructor
      · rintro ⟨a, hmem, hid, hp⟩
        rcases (ha a).mp hmem with hmem | rfl
        · exact Or.inl ⟨a, hmem, hid, hp⟩
        · exact Or.inr ⟨hid.symm, hp.symm⟩
      · rintro (⟨a, hmem, hid, hp⟩ | ⟨rfl, rfl⟩)
        · exact ⟨a, (ha a).mpr (Or.inl hmem), hid, hp⟩
        · exact ⟨_, (ha _).mpr (Or.inr rfl), rfl, rfl⟩
    · constructor
      · rintro ⟨r, hmem, hid⟩
        rcases (hb r).mp hmem with hmem | rfl
        · exact Or.inl ⟨r, hmem, hid⟩
        · exact Or.inr hid.symm
      · rintro (⟨r, hmem, hid⟩ | rfl)
        · exact ⟨r, (hb r).mpr (Or.inl hmem), hid⟩
        · exact ⟨_, (hb _).mpr (Or.inr rfl), rfl⟩

theorem updateBlinkDefaultWallet_ok {blinkAccountId : String} {wallet : WalletKind}
    {out : UpdatedBlinkAccount}
    (h : updateBlinkDefaultWallet ctx blinkAccountId wallet s = .ok (out, s')) :
    SameAccounts s s' ∧ s'.accountIdentifiers = s.accountIdentifiers ∧
      s'.usedSignedMessages = s.usedSignedMessages := by
  unfold updateBlinkDefaultWallet at h
  simp only at h
  split at h
  · cases h
  · cases h
    refine ⟨⟨fun _ _ => Iff.rfl, fun _ _ => Iff.rfl, fun id => ?_⟩, rfl, rfl⟩
    have hid : ∀ (p : BlinkAccount → Bool) (y : BlinkAccount), (Table.onRow p (fun r =>
        { r with defaultWallet := wallet, updatedAt := ctx.now }) y).accountId = y.accountId := by
      intro p y
      unfold Table.onRow
      split <;> rfl
    constructor
    · rintro ⟨x, hx, hxid⟩
      obtain ⟨y, hy, rfl⟩ := List.mem_map.mp hx
      exact ⟨y, hy, (hid _ y).symm.trans hxid⟩
    · rintro ⟨y, hy, hyid⟩
      exact ⟨_, List.mem_map.mpr ⟨y, hy, rfl⟩, (hid _ y).trans hyid⟩

end AccountStore

end BlinkLnurl
