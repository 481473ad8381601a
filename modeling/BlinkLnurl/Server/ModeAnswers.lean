import BlinkLnurl.Server.ModeMachine

/-!
# Mode answers under concurrency

A pool of `upsert_spark_mode` calls, each of up to four statements that other
calls run between. What a call answers was so at some moment of it
(`mode_answers_truthful`): an `Ok` names a step of the call after which the
store held its request, a `StaleModeTimestamp` the refused write and the re-read
that found another request.
-/

namespace BlinkLnurl

open Conc Rel AccountStore

abbrev ModePool := Config SparkModeUpdate Call Reply RepositoryError Unit World

/-- The pubkey has a record. -/
def World.Seen (w : World) (pubkey : String) : Prop :=
  w.accounts.getSparkAccountMode pubkey ≠ none

/-- The record is that of the request. -/
def SparkAccountMode.Of (record : SparkAccountMode) (update : SparkModeUpdate) : Prop :=
  record.mode = some update.mode ∧ record.modeLastTimestamp = some update.clientTimestamp

/-- The store holds the mode and the anchor of the request. -/
def World.Holds (w : World) (update : SparkModeUpdate) : Prop :=
  ∃ record, w.accounts.getSparkAccountMode update.pubkey = some record ∧ record.Of update

/-- The statements of `upsert_spark_mode`. -/
inductive StatementOf (update : SparkModeUpdate) : AccountOp → Prop
  | look : StatementOf update (.sparkAccountIdByPubkey update.pubkey)
  | create : StatementOf update (.insertSparkAccount update.pubkey)
  | write : StatementOf update (.updateSparkMode update)
  | reread : StatementOf update (.getSparkAccountMode update.pubkey)

/-! ## The statements -/

section Statements

variable {w w' : World} {update : SparkModeUpdate} {pubkey : String} {ctx : Ctx}

theorem StatementOf.byPubkey {op : AccountOp} (h : StatementOf update op) : op.ByPubkey := by
  cases h <;> trivial

theorem ModeChange.seen {old new : Option SparkAccountMode} {ev : CallEvent}
    (change : ModeChange pubkey old new ev) (h : old ≠ none) : new ≠ none := by
  cases change with
  | accepts _ _ _ _ _ _ _ _ hnew => exact hnew ▸ Option.some_ne_none _
  | refuses _ _ _ _ _ _ hnew => exact hnew ▸ h
  | fills _ _ _ _ _ _ _ hnew => exact hnew ▸ Option.some_ne_none _
  | refreshes _ _ _ _ _ _ _ _ hnew => exact hnew ▸ Option.some_ne_none _
  | creates _ _ _ _ _ hnew => exact hnew ▸ Option.some_ne_none _
  | keeps _ _ _ hnew => exact hnew ▸ h

/-- A record stays. -/
theorem exec_seen {c : Call} {ch : Choice c} {r : Reply c} (inv : RepInv w.accounts)
    (hby : ∀ op, c = .account op → op.ByPubkey) (h : exec c ch w = some (r, w'))
    (hseen : w.Seen pubkey) : w'.Seen pubkey :=
  (exec_mode (i := 0) inv hby h pubkey).seen hseen

/-- A first contact never runs into a constraint: its account id is new, and the
pubkey is looked up in the same transaction. -/
theorem insertSparkAccount_succeeds {s : AccountStore} (inv : RepInv s)
    (hfresh : ∀ p, ¬ s.HasProvider ctx.generatedId p) :
    ∃ s', insertSparkAccount ctx pubkey s = .ok s' := by
  have haccount : ∃ accounts,
      s.accounts.insert ⟨ctx.generatedId, .spark, ctx.now, ctx.now⟩ = some accounts := by
    refine Table.insert_of_no_clash fun a ha hclash => ?_
    exact hfresh a.provider ⟨a, ha, hclash, rfl⟩
  obtain ⟨accounts, haccounts⟩ := haccount
  unfold insertSparkAccount
  rw [haccounts]
  cases hpk : s.accountOfPubkey pubkey with
  | some r => exact ⟨s, rfl⟩
  | none =>
      obtain ⟨sparkAccounts, hspark⟩ : ∃ sparkAccounts,
          s.sparkAccounts.insert (newSparkAccount ctx.generatedId pubkey ctx.now) =
            some sparkAccounts := by
        refine Table.insert_of_no_clash fun r hr hclash => ?_
        rcases hclash with hid | hown
        · exact hfresh .spark (inv.spark_provider ⟨r, hr, hid, rfl⟩)
        · exact accountOfPubkey_eq_none.mp hpk r.accountId ⟨r, hr, rfl, hown⟩
      rw [hspark]
      exact ⟨_, rfl⟩

/-- A statement fails only where the store does. -/
theorem StatementOf.fails {op : AccountOp} (hop : StatementOf update op) (inv : RepInv w.accounts)
    {ch : StoreChoice} {e : RepositoryError} (h : exec (.account op) ch w = some (.error e, w')) :
    e = .general ∧ ch.fails = true := by
  have h : execAccount op ch w = some (.error e, w') := h
  unfold execAccount at h
  split at h
  · cases h
  · rename_i hused
    split at h
    · rename_i hfails
      obtain ⟨he, _⟩ := Prod.mk.inj (Option.some.inj h)
      exact ⟨(Except.error.inj he).symm, hfails⟩
    · -- the statement itself always succeeds
      exfalso
      cases hop with
      | look => cases h
      | write => cases h
      | reread => cases h
      | create =>
          have hfresh : w.accounts.accounts.get ch.generatedId = none := by simpa using hused
          obtain ⟨s', hs'⟩ : ∃ s', insertSparkAccount (w.ctx ch.generatedId) update.pubkey
              w.accounts = .ok s' :=
            insertSparkAccount_succeeds inv (hasProvider_of_get hfresh)
          simp only [AccountOp.run, hs'] at h
          cases h

/-- A first contact leaves a record. -/
theorem exec_insertSparkAccount {ch : StoreChoice} {a : Unit}
    (h : exec (.account (.insertSparkAccount pubkey)) ch w = some (.ok a, w')) :
    w'.Seen pubkey := by
  rcases execAccount_cases h with ⟨_, _, hr⟩ | ⟨_, s', _, hrun, rfl, _⟩
  · exact nomatch hr
  · rcases insertSparkAccount_modes (map_unit_ok hrun) with ⟨hkeeps, hsome⟩ | ⟨id, adds⟩
    · show s'.getSparkAccountMode pubkey ≠ none
      rw [hkeeps.getSparkAccountMode]
      exact hsome
    · show s'.getSparkAccountMode pubkey ≠ none
      rw [adds.self]
      exact Option.some_ne_none _

/-- The first look finds a pubkey that has a record. -/
theorem exec_sparkAccountIdByPubkey {ch : StoreChoice} {id : String}
    (h : exec (.account (.sparkAccountIdByPubkey pubkey)) ch w = some (.ok (some id), w')) :
    w'.Seen pubkey := by
  rcases execAccount_cases h with ⟨_, _, hr⟩ | ⟨a, s', hr, hrun, rfl, _⟩
  · exact nomatch hr
  · obtain rfl := Except.ok.inj hr
    obtain ⟨hid, rfl⟩ := Prod.mk.inj (Except.ok.inj hrun)
    obtain ⟨r, hrow, _⟩ := Option.map_eq_some_iff.mp hid
    show w.accounts.getSparkAccountMode pubkey ≠ none
    rw [getSparkAccountMode, hrow]
    exact Option.some_ne_none _

/-- The guarded `UPDATE`, seen from the world. -/
theorem exec_updateSparkMode {ch : StoreChoice} {written : Bool}
    (h : exec (.account (.updateSparkMode update)) ch w = some (.ok written, w')) :
    written = (updateSparkMode (w.ctx ch.generatedId) update w.accounts).1 ∧
      w'.accounts = (updateSparkMode (w.ctx ch.generatedId) update w.accounts).2 := by
  rcases execAccount_cases h with ⟨_, _, hr⟩ | ⟨a, s', hr, hrun, rfl, _⟩
  · exact nomatch hr
  · obtain ⟨ha, hs'⟩ := Prod.mk.inj (Except.ok.inj hrun)
    exact ⟨(Except.ok.inj hr).trans ha.symm, hs'.symm⟩

/-- A write leaves its request in the store. -/
theorem holds_of_written {ch : StoreChoice}
    (h : exec (.account (.updateSparkMode update)) ch w = some (.ok true, w')) :
    w'.Holds update := by
  obtain ⟨hwritten, hs'⟩ := exec_updateSparkMode h
  obtain ⟨record, hrecord, hold⟩ := updateSparkMode_written.mp hwritten.symm
  obtain ⟨_, hpk⟩ := getSparkAccountMode_eq_some.mp hrecord
  refine ⟨acceptMode (w.ctx ch.generatedId).now update record, ?_, rfl, rfl⟩
  rw [hs', updateSparkMode_modes, hrecord, Option.map_some, if_pos ⟨hpk, hold⟩]

/-- A refused write has met an anchor that is no older. -/
theorem anchor_of_refused {ch : StoreChoice} (hseen : w.Seen update.pubkey)
    (h : exec (.account (.updateSparkMode update)) ch w = some (.ok false, w')) :
    ∃ anchor, w.anchor update.pubkey = some anchor ∧ update.clientTimestamp ≤ anchor := by
  obtain ⟨hwritten, _⟩ := exec_updateSparkMode h
  obtain ⟨record, hrecord⟩ := Option.ne_none_iff_exists'.mp hseen
  have hnewer : ¬ record.OlderThan update.clientTimestamp := fun hold =>
    Bool.false_ne_true (hwritten.trans (updateSparkMode_written.mpr ⟨record, hrecord, hold⟩))
  unfold SparkAccountMode.OlderThan at hnewer
  push Not at hnewer
  obtain ⟨anchor, hanchor, hle⟩ := hnewer
  refine ⟨anchor, ?_, hle⟩
  rw [World.anchor, hrecord]
  exact hanchor

end Statements

/-! ## The outline -/

/-- A pubkey that the store has a record of is written to, and it stays known. -/
def answersContract : Contract SparkModeUpdate Call Reply World where
  inv h := RepInv h.state.accounts
  rely i h h' := (∀ pubkey, h.state.Seen pubkey → h'.state.Seen pubkey) ∧ h'.callsOf i = h.callsOf i
  guard _ _ h c := ∀ op, c = .account op →
    op.ByPubkey ∧ ∀ update, op = .updateSparkMode update → h.state.Seen update.pubkey

/-- Thread `i` has seen its statement fail. -/
def FailedStatement (i : Nat) (update : SparkModeUpdate) (h : History) : Prop :=
  ∃ op, StatementOf update op ∧ ⟨i, .account op, .error .general⟩ ∈ h.callsOf i

/-- The last statement of thread `i` is a re-read that found the record. -/
def Reread (i : Nat) (update : SparkModeUpdate) (record : SparkAccountMode) (h : History) : Prop :=
  (h.callsOf i).getLast? =
    some ⟨i, .account (.getSparkAccountMode update.pubkey), .ok (some record)⟩

/-- How a call ends, told by its own statements. -/
def Answered (i : Nat) (update : SparkModeUpdate) (h : History) :
    Except RepositoryError Unit → Prop
  | .ok () => h.state.Seen update.pubkey ∧
      (⟨i, .account (.updateSparkMode update), .ok true⟩ ∈ h.callsOf i ∨
        ∃ record : SparkAccountMode, record.Of update ∧ Reread i update record h)
  | .error .staleModeTimestamp => h.state.Seen update.pubkey ∧
      ⟨i, .account (.updateSparkMode update), .ok false⟩ ∈ h.callsOf i ∧
        ∃ record : SparkAccountMode, ¬ record.Of update ∧ Reread i update record h
  | .error .general => FailedStatement i update h
  | .error _ => False

section Outline

variable {i : Nat} {update : SparkModeUpdate}

theorem answersContract_lawful : answersContract.Lawful semantics always where
  refl := fun _ _ => ⟨fun _ h => h, rfl⟩
  trans := fun h₁ h₂ => ⟨fun pubkey h => h₂.1 pubkey (h₁.1 pubkey h), h₂.2.trans h₁.2⟩
  call := fun inv hguard hexec _ => exec_repInv inv (fun op hop => (hguard op hop).1) hexec
  tick := fun {h t s'} inv htick => by
    show RepInv s'.accounts
    rw [(tick_cases htick).1]
    exact inv
  ticks := fun {j h t s'} _ htick => by
    refine ⟨fun pubkey hseen => ?_, rfl⟩
    show s'.accounts.getSparkAccountMode pubkey ≠ none
    rw [(tick_cases htick).1]
    exact hseen
  others := fun inv hguard hexec _ hne =>
    ⟨fun _ hseen => exec_seen inv (fun op hop => (hguard op hop).1) hexec hseen,
      Hist.callsOf_push_ne hne⟩

theorem answered_stable {h h' : History} {res : Except RepositoryError Unit}
    (hrely : answersContract.rely i h h') (hpost : Answered i update h res) :
    Answered i update h' res := by
  obtain ⟨hseen, hcalls⟩ := hrely
  cases res with
  | ok u =>
      obtain ⟨hknown, hrest⟩ := hpost
      refine ⟨hseen _ hknown, ?_⟩
      unfold Reread
      rw [hcalls]
      exact hrest
  | error e =>
      cases e with
      | staleModeTimestamp =>
          obtain ⟨hknown, hrest⟩ := hpost
          refine ⟨hseen _ hknown, ?_⟩
          unfold Reread
          rw [hcalls]
          exact hrest
      | general =>
          obtain ⟨op, hop, hmem⟩ := hpost
          exact ⟨op, hop, hcalls ▸ hmem⟩
      | _ => exact hpost

/-- One statement: it fails, or the rest goes on from where it left the store. -/
theorem statement_bind {α : Type} {op : AccountOp} {f : op.Result → Store α} {h : History}
    {Q : History → Except RepositoryError α → Prop} (hop : StatementOf update op)
    (hseen : op = .updateSparkMode update → h.state.Seen update.pubkey)
    (herr : ∀ h, FailedStatement i update h → Q h (.error .general))
    (hf : ∀ (h₁ : History) ch a w, answersContract.rely i h h₁ →
      exec (.account op) ch h₁.state = some (.ok a, w) →
        answersContract.wp semantics always i update (f a) Q (h₁.push ⟨i, .account op, .ok a⟩ w)) :
    answersContract.wp semantics always i update ((Store.account op).bind f) Q h := by
  refine Contract.wp_bind.mpr (Contract.wp_call.mpr ?_)
  intro h₁ hrely inv
  refine ⟨fun op' hop' => ?_, ?_⟩
  · obtain rfl := Call.account.inj hop'
    refine ⟨hop.byPubkey, fun update' hupdate => ?_⟩
    cases hop with
    | write =>
        obtain rfl := AccountOp.updateSparkMode.inj hupdate
        exact hrely.1 _ (hseen rfl)
    | look => exact nomatch hupdate
    | create => exact nomatch hupdate
    | reread => exact nomatch hupdate
  · intro ch r w hexec _ _
    refine Contract.wp_ofExcept.mpr ?_
    cases r with
    | ok a => exact hf h₁ ch a w hrely hexec
    | error e =>
        obtain ⟨rfl, _⟩ := hop.fails inv hexec
        refine herr _ ⟨op, hop, ?_⟩
        rw [Hist.callsOf_push_self]
        exact List.mem_append_right _ (List.mem_singleton_self _)

theorem seen_of_holds {w : World} (h : w.Holds update) : w.Seen update.pubkey := by
  obtain ⟨record, hrecord, _⟩ := h
  unfold World.Seen
  rw [hrecord]
  exact Option.some_ne_none _

/-- After `ensure_spark_account` the pubkey has a record. -/
theorem ensureSparkAccount_seen {h : History} :
    answersContract.wp semantics always i update (ensureSparkAccount update.pubkey)
      (fun h r => match r with
        | .ok _ => h.state.Seen update.pubkey
        | .error e => Answered i update h (.error e)) h := by
  simp only [ensureSparkAccount, Prog.bind_eq, Prog.pure_eq]
  refine statement_bind .look (fun h => by cases h) (fun _ h => h) fun h₁ ch stored w _ hexec => ?_
  cases stored with
  | some id => exact Contract.wp_ret.mpr (exec_sparkAccountIdByPubkey hexec)
  | none =>
      -- another call may create the account in between; then this one writes nothing
      refine Contract.wp_call.mpr ?_
      intro h₂ _ inv
      refine ⟨fun op hop => ?_, ?_⟩
      · obtain rfl := Call.account.inj hop
        exact ⟨trivial, fun _ h => by cases h⟩
      · intro ch r w hexec _ _
        refine Contract.wp_ofExcept.mpr ?_
        cases r with
        | ok a => exact exec_insertSparkAccount hexec
        | error e =>
            have hop : StatementOf update (.insertSparkAccount update.pubkey) := .create
            obtain ⟨rfl, _⟩ := hop.fails inv hexec
            refine ⟨_, hop, ?_⟩
            rw [Hist.callsOf_push_self]
            exact List.mem_append_right _ (List.mem_singleton_self _)

/-- What the re-read finds decides the answer. -/
theorem answered_of_reread {h : History} {ch : StoreChoice} {found : Option SparkAccountMode}
    {w : World} (hseen : h.state.Seen update.pubkey)
    (hrefused : ⟨i, .account (.updateSparkMode update), .ok false⟩ ∈ h.callsOf i)
    (hexec : exec (.account (.getSparkAccountMode update.pubkey)) ch h.state =
      some (.ok found, w)) :
    Answered i update
      (h.push ⟨i, .account (.getSparkAccountMode update.pubkey), .ok found⟩ w)
      (classifyRefusedModeWrite found update) := by
  obtain ⟨hw, hfound⟩ := exec_getSparkAccountMode hexec
  subst hw
  obtain ⟨record, hrecord⟩ := Option.ne_none_iff_exists'.mp hseen
  rw [hrecord] at hfound
  subst hfound
  have hlast : Reread i update record
      (h.push ⟨i, .account (.getSparkAccountMode update.pubkey), .ok (some record)⟩ h.state) := by
    rw [Reread, Hist.callsOf_push_self, List.getLast?_concat]
  by_cases hof : record.Of update
  · have hclass : classifyRefusedModeWrite (some record) update = .ok () := if_pos hof
    rw [hclass]
    exact ⟨hseen, Or.inr ⟨record, hof, hlast⟩⟩
  · have hclass : classifyRefusedModeWrite (some record) update = .error .staleModeTimestamp :=
      if_neg hof
    rw [hclass]
    refine ⟨hseen, ?_, record, hof, hlast⟩
    rw [Hist.callsOf_push_self]
    exact List.mem_append_left _ hrefused

theorem upsertSparkMode_answered {h : History} :
    answersContract.wp semantics always i update (upsertSparkMode update)
    (Answered i update) h := by
  simp only [upsertSparkMode, Prog.bind_eq, Prog.pure_eq]
  refine Contract.wp_bind.mpr (Contract.wp_mono ?_ ensureSparkAccount_seen)
  intro h r hseen
  cases r with
  | error e => exact hseen
  | ok u =>
      refine statement_bind .write (fun _ => hseen) (fun _ h => h)
        fun h₁ ch written w hrely hexec => ?_
      have hmem : ⟨i, .account (.updateSparkMode update), .ok written⟩ ∈
          (h₁.push ⟨i, .account (.updateSparkMode update), .ok written⟩ w).callsOf i := by
        rw [Hist.callsOf_push_self]
        exact List.mem_append_right _ (List.mem_singleton_self _)
      cases written with
      | true => exact Contract.wp_ret.mpr ⟨seen_of_holds (holds_of_written hexec), Or.inl hmem⟩
      | false =>
          have hknown : w.Seen update.pubkey := by
            obtain ⟨hwritten, hs'⟩ := exec_updateSparkMode hexec
            have hsame := updateSparkMode_of_refused hwritten.symm
            show w.accounts.getSparkAccountMode update.pubkey ≠ none
            rw [hs', hsame]
            exact hrely.1 _ hseen
          refine statement_bind .reread (fun h => by cases h) (fun _ h => h) ?_
          intro h₂ ch₂ found w₂ hrely₂ hexec₂
          refine Contract.wp_ofExcept.mpr (answered_of_reread (hrely₂.1 _ hknown) ?_ hexec₂)
          rw [hrely₂.2]
          exact hmem

end Outline

theorem answers_outline : Outline answersContract semantics always upsertSparkMode Answered where
  lawful := answersContract_lawful
  post_stable := fun hrely _ hpost => answered_stable hrely hpost
  accept := fun _ _ => upsertSparkMode_answered

/-! ## Answers are true -/

/-- A pubkey that has a record has one row. -/
theorem one_row_of_seen {w : World} {pubkey : String} (h : w.Seen pubkey) :
    w.accounts.sparkAccounts.affected (fun r => r.pubkey = pubkey) = 1 := by
  obtain ⟨record, hrecord⟩ := Option.ne_none_iff_exists'.mp h
  obtain ⟨⟨r, hr, rfl⟩, hpk⟩ := getSparkAccountMode_eq_some.mp hrecord
  refine Table.affected_eq_one hr (decide_eq_true hpk) ?_
  intro a b ha hb
  exact Or.inr ((of_decide_eq_true ha).trans (of_decide_eq_true hb).symm)

/-- In every interleaving of mode requests: an `Ok` was so after some statement
of the call; a `StaleModeTimestamp` met an anchor that was no older when it tried
to write, and another request when it read again; no other answer is given
unless the store failed. Afterwards the pubkey has one row, and every Spark
account has its own. -/
theorem mode_answers_truthful {w₀ : World} (inv : RepInv w₀.accounts) {cfg : ModePool}
    (hreach : Reachable semantics always upsertSparkMode w₀ cfg) {i : Nat}
    {update : SparkModeUpdate} (hrequest : cfg.request i = some update)
    {res : Except RepositoryError Unit} (hdone : cfg.outcome i = some res) :
    (res = .ok () → ∃ c r mid mid',
      Took semantics always upsertSparkMode w₀ cfg ⟨i, c, r⟩ mid mid' ∧
        mid'.hist.state.Holds update) ∧
    (res = .error .staleModeTimestamp →
      (∃ mid mid', Took semantics always upsertSparkMode w₀ cfg
          ⟨i, .account (.updateSparkMode update), .ok false⟩ mid mid' ∧
        ∃ anchor, mid.hist.state.anchor update.pubkey = some anchor ∧
          update.clientTimestamp ≤ anchor) ∧
      ∃ record mid mid', Took semantics always upsertSparkMode w₀ cfg
          ⟨i, .account (.getSparkAccountMode update.pubkey), .ok record⟩ mid mid' ∧
        (cfg.hist.callsOf i).getLast? =
          some ⟨i, .account (.getSparkAccountMode update.pubkey), .ok record⟩ ∧
        ¬ mid.hist.state.Holds update) ∧
    res ≠ .error .accountNotFound ∧
    (res ≠ .ok () → res ≠ .error .staleModeTimestamp → res = .error .general ∧
      ∃ op ch mid mid', Took semantics always upsertSparkMode w₀ cfg
          ⟨i, .account op, .error .general⟩ mid mid' ∧
        exec (.account op) ch mid.hist.state = some (.error .general, mid'.hist.state) ∧
        ch.fails = true) ∧
    (res = .ok () ∨ res = .error .staleModeTimestamp →
      cfg.hist.state.accounts.sparkAccounts.affected (fun r => r.pubkey = update.pubkey) = 1) ∧
    ∀ a ∈ cfg.hist.state.accounts.accounts, a.provider = .spark →
      ∃ r ∈ cfg.hist.state.accounts.sparkAccounts, r.accountId = a.accountId := by
  have outlined : ∀ {cfg}, Reachable semantics always upsertSparkMode w₀ cfg →
      Outlined answersContract semantics always Answered cfg :=
    fun h => Reachable.sound answers_outline inv h
  obtain ⟨update', hrequest', hanswered⟩ := (outlined hreach).finished hdone
  obtain rfl := Option.some.inj (hrequest.symm.trans hrequest')
  have take : ∀ {c r}, ⟨i, c, r⟩ ∈ cfg.hist.callsOf i → ∃ mid mid',
      Took semantics always upsertSparkMode w₀ cfg ⟨i, c, r⟩ mid mid' :=
    fun hmem => hreach.took (Hist.mem_callsOf.mp hmem).1
  -- a re-read saw what the store held
  have reread : ∀ {record}, Reread i update record cfg.hist → ∃ mid mid',
      Took semantics always upsertSparkMode w₀ cfg
        ⟨i, .account (.getSparkAccountMode update.pubkey), .ok (some record)⟩ mid mid' ∧
      mid'.hist.state = mid.hist.state ∧
      mid.hist.state.accounts.getSparkAccountMode update.pubkey = some record := by
    intro record hlast
    obtain ⟨mid, mid', took⟩ := take (List.mem_of_getLast? hlast)
    obtain ⟨_, _, ch, _, hexec, _⟩ := took.call
    obtain ⟨hw, hrecord⟩ := exec_getSparkAccountMode hexec
    exact ⟨mid, mid', took, hw, hrecord.symm⟩
  have orphans : ∀ a ∈ cfg.hist.state.accounts.accounts, a.provider = .spark →
      ∃ r ∈ cfg.hist.state.accounts.sparkAccounts, r.accountId = a.accountId := by
    intro a ha hprovider
    obtain ⟨pk, r, hr, hid, _⟩ := (outlined hreach).inv.spark_child ⟨a, ha, rfl, hprovider⟩
    exact ⟨r, hr, hid⟩
  refine ⟨?_, ?_, ?_, ?_, ?_, orphans⟩
  · rintro rfl
    obtain ⟨_, hwritten | ⟨record, hof, hlast⟩⟩ := hanswered
    · obtain ⟨mid, mid', took⟩ := take hwritten
      obtain ⟨_, _, ch, _, hexec, _⟩ := took.call
      exact ⟨_, _, mid, mid', took, holds_of_written hexec⟩
    · obtain ⟨mid, mid', took, hw, hrecord⟩ := reread hlast
      refine ⟨_, _, mid, mid', took, record, ?_, hof⟩
      rw [hw]
      exact hrecord
  · rintro rfl
    obtain ⟨_, hrefused, record, hnot, hlast⟩ := hanswered
    constructor
    · obtain ⟨mid, mid', took⟩ := take hrefused
      obtain ⟨_, k, ch, hth, hexec, _⟩ := took.call
      have hguard := (outlined took.before).guard answersContract_lawful.toKeeps hth
      exact ⟨mid, mid', took, anchor_of_refused ((hguard _ rfl).2 _ rfl) hexec⟩
    · obtain ⟨mid, mid', took, _, hrecord⟩ := reread hlast
      refine ⟨some record, mid, mid', took, hlast, ?_⟩
      intro ⟨record', hrecord', hof⟩
      obtain rfl := Option.some.inj (hrecord.symm.trans hrecord')
      exact hnot hof
  · rintro rfl
    exact hanswered
  · intro hok hstale
    cases res with
    | ok u => exact absurd rfl hok
    | error e =>
        cases e with
        | staleModeTimestamp => exact absurd rfl hstale
        | general =>
            obtain ⟨op, hop, hmem⟩ := hanswered
            obtain ⟨mid, mid', took⟩ := take hmem
            obtain ⟨_, _, ch, _, hexec, _⟩ := took.call
            exact ⟨rfl, op, ch, mid, mid', took, hexec,
              (hop.fails (outlined took.before).inv hexec).2⟩
        | _ => exact absurd hanswered id
  · rintro (rfl | rfl)
    · exact one_row_of_seen hanswered.1
    · exact one_row_of_seen hanswered.1

/-! ## Example

Two first contacts at once: both calls find no account and create one; the older
request is refused and finds the newer one stored. -/

section Example

def raceNewer : SparkModeUpdate :=
  { pubkey := ownerKey.hex, mode := .anon, clientTimestamp := 5, country := none }

def raceOlder : SparkModeUpdate :=
  { pubkey := ownerKey.hex, mode := .enhanced, clientTimestamp := 3, country := none }

def raceSchedule : List (Move SparkModeUpdate semantics) :=
  [.accept raceNewer, .accept raceOlder, .call 0 (Answers.choice {}), .call 1 (Answers.choice {}),
    .call 1 (Answers.choice {}), .call 0 (Answers.choice { generatedId := "acct_2" }),
    .call 0 (Answers.choice { generatedId := "acct_2" }),
    .call 1 (Answers.choice { generatedId := "acct_2" }),
    .call 1 (Answers.choice { generatedId := "acct_2" })]

theorem mode_answers_truthful_race :
    ∃ cfg : ModePool, cfg.request 1 = some raceOlder ∧
      cfg.outcome 1 = some (.error .staleModeTimestamp) ∧
      (∃ mid : ModePool, ∃ anchor, mid.hist.state.anchor ownerKey.hex = some anchor ∧
        (3 : Int) ≤ anchor) ∧
      cfg.hist.state.accounts.sparkAccounts.affected (fun r => r.pubkey = ownerKey.hex) = 1 := by
  have hrun : (replay semantics always upsertSparkMode raceSchedule
      (.initial (World.fresh ⟨1000000, by decide⟩))).any
        (fun cfg => cfg.outcome 1 = some (.error .staleModeTimestamp)) = true := by
    decide +kernel
  obtain ⟨cfg, hcfg, hdone⟩ := (Option.any_eq_true _ _).mp hrun
  have hdone : cfg.outcome 1 = some (.error .staleModeTimestamp) := of_decide_eq_true hdone
  have hrequest : cfg.request 1 = some raceOlder := replay_request hcfg 1
  obtain ⟨_, hstale, _, _, hone, _⟩ :=
    mode_answers_truthful RepInv.empty (replay_steps hcfg) hrequest hdone
  obtain ⟨⟨mid, _, _, hanchor⟩, _⟩ := hstale rfl
  exact ⟨cfg, hrequest, hdone, ⟨mid, hanchor⟩, hone (Or.inr rfl)⟩

end Example

end BlinkLnurl
