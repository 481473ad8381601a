import BlinkLnurl.Repository.ModeEffects
import BlinkLnurl.Server.AccountContract

/-!
# The mode of a pubkey

The mode columns are written by mode requests, by the server when it fills in a
mode nobody has declared, and by country refreshes. `ModeChange` says what one
call does to the record of a pubkey.
-/

namespace BlinkLnurl

open Conc Rel AccountStore

/-- The mode request a call has written. -/
def acceptedMode : CallEvent → Option SparkModeUpdate
  | ⟨_, .account (.updateSparkMode update), .ok true⟩ => some update
  | _ => none

/-- The mode request a call has refused. -/
def refusedMode : CallEvent → Option SparkModeUpdate
  | ⟨_, .account (.updateSparkMode update), .ok false⟩ => some update
  | _ => none

/-- The pubkey whose mode a call has filled in, were it unset. -/
def filledMode : CallEvent → Option String
  | ⟨_, .account (.setSparkModeEnhancedIfUnset pubkey), .ok _⟩ => some pubkey
  | _ => none

/-- The pubkey whose Spark account a call has found or created. -/
def introducedSpark : CallEvent → Option String
  | ⟨_, .account (.upsertSparkRegistration registration), .ok _⟩ => some registration.pubkey
  | ⟨_, .account (.transferIdentifier transfer), .ok _⟩ => some transfer.destinationSparkPubkey
  | ⟨_, .account (.transferBlinkIdentifierToSpark transfer), .ok _⟩ =>
      some transfer.destinationSparkPubkey
  | ⟨_, .account (.insertSparkAccount pubkey), .ok _⟩ => some pubkey
  | _ => none

/-- What a call does to the mode record of a pubkey. -/
inductive ModeChange (pubkey : String) (old new : Option SparkAccountMode) (ev : CallEvent) : Prop
  | accepts (update : SparkModeUpdate) (record : SparkAccountMode) (now : Int) :
      acceptedMode ev = some update → introducedSpark ev = none → update.pubkey = pubkey →
      old = some record → record.OlderThan update.clientTimestamp →
      new = some (acceptMode now update record) → ModeChange pubkey old new ev
  | refuses (update : SparkModeUpdate) : acceptedMode ev = none → refusedMode ev = some update →
      introducedSpark ev = none → update.pubkey = pubkey →
      (∀ record, old = some record → ¬ record.OlderThan update.clientTimestamp) → new = old →
      ModeChange pubkey old new ev
  | fills (record : SparkAccountMode) (now : Int) : acceptedMode ev = none →
      filledMode ev = some pubkey → introducedSpark ev = none → old = some record →
      record.mode = none → new = some (fillMode now record) → ModeChange pubkey old new ev
  | refreshes (record : SparkAccountMode) (now : Int) (country : String) : acceptedMode ev = none →
      filledMode ev = none → introducedSpark ev = none → old = some record →
      record.mode = some .enhanced → new = some (refreshCountry now country record) →
      ModeChange pubkey old new ev
  | creates (id : String) : acceptedMode ev = none → filledMode ev = none →
      introducedSpark ev = some pubkey → old = none → new = some (unsetMode id pubkey) →
      ModeChange pubkey old new ev
  | keeps : (∀ update, acceptedMode ev = some update ∨ refusedMode ev = some update →
        update.pubkey ≠ pubkey) →
      (filledMode ev = some pubkey → ∀ record, old = some record → record.mode ≠ none) →
      (introducedSpark ev = some pubkey → old ≠ none) → new = old → ModeChange pubkey old new ev

section Change

variable {s s' : AccountStore} {ctx : Ctx} {pubkey : String} {ev : CallEvent}

/-- A call that is no mode write and leaves the records. -/
theorem modeChange_of_keeps (haccept : acceptedMode ev = none) (hrefuse : refusedMode ev = none)
    (hfill : filledMode ev = none)
    (hknown : introducedSpark ev = some pubkey → s.getSparkAccountMode pubkey ≠ none)
    (h : s'.getSparkAccountMode pubkey = s.getSparkAccountMode pubkey) :
    ModeChange pubkey (s.getSparkAccountMode pubkey) (s'.getSparkAccountMode pubkey) ev := by
  refine .keeps (fun update hupdate => ?_) (fun h => ?_) hknown h
  · rw [haccept, hrefuse] at hupdate
    rcases hupdate with hupdate | hupdate
    · exact nomatch hupdate
    · exact nomatch hupdate
  · rw [hfill] at h
    exact nomatch h

/-- A call that introduces no account either. -/
theorem modeChange_of_same (haccept : acceptedMode ev = none) (hrefuse : refusedMode ev = none)
    (hfill : filledMode ev = none) (hintroduced : introducedSpark ev = none)
    (h : s'.getSparkAccountMode pubkey = s.getSparkAccountMode pubkey) :
    ModeChange pubkey (s.getSparkAccountMode pubkey) (s'.getSparkAccountMode pubkey) ev := by
  refine modeChange_of_keeps haccept hrefuse hfill (fun hknown => ?_) h
  rw [hintroduced] at hknown
  cases hknown

theorem modeChange_of_ensures {pk : String} (haccept : acceptedMode ev = none)
    (hrefuse : refusedMode ev = none) (hfill : filledMode ev = none)
    (hintroduce : introducedSpark ev = some pk) (h : EnsuresMode s s' pk) :
    ModeChange pubkey (s.getSparkAccountMode pubkey) (s'.getSparkAccountMode pubkey) ev := by
  rcases h with ⟨hkeeps, hsome⟩ | ⟨id, adds⟩
  · refine modeChange_of_keeps haccept hrefuse hfill (fun h => ?_) hkeeps.getSparkAccountMode
    obtain rfl := Option.some.inj (hintroduce.symm.trans h)
    exact hsome
  · by_cases hpk : pubkey = pk
    · subst hpk
      exact .creates id haccept hfill hintroduce adds.unowned adds.self
    · refine modeChange_of_keeps haccept hrefuse hfill (fun h => ?_) (adds.other hpk)
      exact absurd (Option.some.inj (hintroduce.symm.trans h)).symm hpk

/-- The guarded `UPDATE` answers whether it has written. -/
theorem modeChange_of_update {i : Nat} {update : SparkModeUpdate} {written : Bool}
    (hwritten : written = (updateSparkMode ctx update s).1) :
    ModeChange pubkey (s.getSparkAccountMode pubkey)
      ((updateSparkMode ctx update s).2.getSparkAccountMode pubkey)
      ⟨i, .account (.updateSparkMode update), .ok written⟩ := by
  rw [updateSparkMode_modes]
  have hiff := @updateSparkMode_written ctx s update
  rw [← hwritten] at hiff
  by_cases hpk : update.pubkey = pubkey
  · subst hpk
    cases hget : s.getSparkAccountMode update.pubkey with
    | none =>
        rw [hget] at hiff
        cases written with
        | true =>
            obtain ⟨record, hrecord, _⟩ := hiff.mp rfl
            exact nomatch hrecord
        | false => exact .refuses update rfl rfl rfl rfl (fun _ h => nomatch h) rfl
    | some record =>
        rw [hget] at hiff
        obtain ⟨_, hown⟩ := getSparkAccountMode_eq_some.mp hget
        cases written with
        | true =>
            obtain ⟨_, hsome, hold⟩ := hiff.mp rfl
            obtain rfl := Option.some.inj hsome
            refine .accepts update record ctx.now rfl rfl rfl rfl hold ?_
            rw [Option.map_some, if_pos ⟨hown, hold⟩]
        | false =>
            have hnewer : ¬ record.OlderThan update.clientTimestamp :=
              fun hold => Bool.false_ne_true (hiff.mpr ⟨record, rfl, hold⟩)
            refine .refuses update rfl rfl rfl rfl ?_ ?_
            · intro _ hsome
              obtain rfl := Option.some.inj hsome
              exact hnewer
            · rw [Option.map_some, if_neg fun h => hnewer h.2]
  · -- another pubkey's request
    refine .keeps ?_ (fun h => nomatch h) (fun h => nomatch h) ?_
    · intro other hother
      cases written with
      | true =>
          rcases hother with h | h
          · obtain rfl := Option.some.inj h
            exact hpk
          · exact nomatch h
      | false =>
          rcases hother with h | h
          · exact nomatch h
          · obtain rfl := Option.some.inj h
            exact hpk
    · cases hget : s.getSparkAccountMode pubkey with
      | none => rfl
      | some record =>
          obtain ⟨_, hown⟩ := getSparkAccountMode_eq_some.mp hget
          rw [Option.map_some, if_neg fun h => hpk (h.1.symm.trans hown)]

theorem modeChange_of_fill {i : Nat} {pk : String} :
    ModeChange pubkey (s.getSparkAccountMode pubkey)
      ((setSparkModeEnhancedIfUnset ctx pk s).getSparkAccountMode pubkey)
      ⟨i, .account (.setSparkModeEnhancedIfUnset pk), .ok ()⟩ := by
  rw [setSparkModeEnhancedIfUnset_modes]
  have noRequest : ∀ update : SparkModeUpdate, (none : Option SparkModeUpdate) = some update ∨
      (none : Option SparkModeUpdate) = some update → update.pubkey ≠ pubkey :=
    fun _ h => h.elim (fun h => nomatch h) fun h => nomatch h
  cases hget : s.getSparkAccountMode pubkey with
  | none => exact .keeps noRequest (fun _ _ h => nomatch h) (fun h => nomatch h) rfl
  | some record =>
      obtain ⟨_, hown⟩ := getSparkAccountMode_eq_some.mp hget
      by_cases hfill : record.pubkey = pk ∧ record.mode = none
      · refine .fills record ctx.now rfl ?_ rfl rfl hfill.2 ?_
        · rw [← hown, hfill.1]
          rfl
        · rw [Option.map_some, if_pos hfill]
      · refine .keeps noRequest ?_ (fun h => nomatch h) ?_
        · intro hpk _ hsome hnone
          obtain rfl := Option.some.inj hsome
          exact hfill ⟨hown.trans (Option.some.inj hpk).symm, hnone⟩
        · rw [Option.map_some, if_neg hfill]

theorem modeChange_of_refresh {i : Nat} {pk country : String} :
    ModeChange pubkey (s.getSparkAccountMode pubkey)
      ((refreshSparkCountryEvidence ctx pk country s).getSparkAccountMode pubkey)
      ⟨i, .account (.refreshSparkCountryEvidence pk country), .ok ()⟩ := by
  have hmodes := @refreshSparkCountryEvidence_modes ctx s pubkey pk country
  cases hget : s.getSparkAccountMode pubkey with
  | none =>
      rw [hmodes, hget]
      exact .keeps (fun _ h => h.elim (fun h => nomatch h) fun h => nomatch h) (fun h => nomatch h)
        (fun h => nomatch h) rfl
  | some record =>
      rw [hmodes, hget, Option.map_some]
      by_cases hrefresh : record.pubkey = pk ∧ record.mode = some .enhanced
      · rw [if_pos hrefresh]
        exact .refreshes record ctx.now country rfl rfl rfl rfl hrefresh.2 rfl
      · rw [if_neg hrefresh]
        exact .keeps (fun _ h => h.elim (fun h => nomatch h) fun h => nomatch h)
          (fun h => nomatch h) (fun h => nomatch h) rfl

end Change

/-- The inversion lemma: what one call does to the mode record of a pubkey. -/
theorem exec_mode {w w' : World} {i : Nat} {c : Call} {ch : Choice c} {r : Reply c}
    (inv : RepInv w.accounts) (hby : ∀ op, c = .account op → op.ByPubkey)
    (h : exec c ch w = some (r, w')) (pubkey : String) :
    ModeChange pubkey (w.accounts.getSparkAccountMode pubkey)
      (w'.accounts.getSparkAccountMode pubkey) ⟨i, c, r⟩ := by
  cases c with
  | payment op =>
      refine modeChange_of_same rfl rfl rfl rfl ?_
      rcases exec_accounts h with hsame | ⟨_, hop⟩
      · rw [hsame]
      · cases hop
  | env op =>
      refine modeChange_of_same rfl rfl rfl rfl ?_
      rcases exec_accounts h with hsame | ⟨_, hop⟩
      · rw [hsame]
      · cases hop
  | account op =>
      rcases execAccount_cases h with ⟨rfl, e, rfl⟩ | ⟨a, s', rfl, hrun, rfl, hfresh⟩
      · cases op <;> exact modeChange_of_same rfl rfl rfl rfl rfl
      · have hby' := hby op rfl
        cases op with
        | updateSparkMode update =>
            obtain ⟨hwritten, hs'⟩ := Prod.mk.inj (Except.ok.inj hrun)
            subst hs'
            exact modeChange_of_update hwritten.symm
        | setSparkModeEnhancedIfUnset pk =>
            obtain ⟨_, hs'⟩ := Prod.mk.inj (Except.ok.inj hrun)
            subst hs'
            exact modeChange_of_fill
        | refreshSparkCountryEvidence pk country =>
            obtain ⟨_, hs'⟩ := Prod.mk.inj (Except.ok.inj hrun)
            subst hs'
            exact modeChange_of_refresh
        | upsertSparkRegistration registration =>
            exact modeChange_of_ensures rfl rfl rfl rfl
              (upsertSparkRegistration_modes inv hby' hfresh (map_unit_ok hrun))
        | transferIdentifier transfer =>
            exact modeChange_of_ensures rfl rfl rfl rfl
              (transferIdentifier_modes inv (map_unit_ok hrun))
        | transferBlinkIdentifierToSpark transfer =>
            exact modeChange_of_ensures rfl rfl rfl rfl
              (transferBlinkIdentifierToSpark_modes inv (map_unit_ok hrun))
        | insertSparkAccount pk =>
            exact modeChange_of_ensures rfl rfl rfl rfl
              (insertSparkAccount_modes (map_unit_ok hrun))
        | deleteSparkRegistration domain pk identifier claim =>
            exact modeChange_of_same rfl rfl rfl rfl
              (deleteSparkRegistration_modes (map_unit_ok hrun)).getSparkAccountMode
        | createBlinkAccount account =>
            exact modeChange_of_same rfl rfl rfl rfl
              (createBlinkAccount_modes (map_unit_ok hrun)).getSparkAccountMode
        | updateBlinkDefaultWallet blinkAccountId wallet =>
            exact modeChange_of_same rfl rfl rfl rfl
              (updateBlinkDefaultWallet_modes hrun).getSparkAccountMode
        | resolveRecipientByIdentifier domain identifier =>
            simp only [AccountOp.run] at hrun
            cases hr : w.accounts.resolveRecipientByIdentifier domain identifier with
            | error e =>
                rw [hr] at hrun
                cases hrun
            | ok recipient =>
                rw [hr] at hrun
                obtain ⟨_, hs'⟩ := Prod.mk.inj (Except.ok.inj hrun)
                subst hs'
                exact modeChange_of_same rfl rfl rfl rfl rfl
        | getSparkAccountMode pk =>
            obtain ⟨_, hs'⟩ := Prod.mk.inj (Except.ok.inj hrun)
            subst hs'
            exact modeChange_of_same rfl rfl rfl rfl rfl
        | getAccountBySparkPubkey pk =>
            obtain ⟨_, hs'⟩ := Prod.mk.inj (Except.ok.inj hrun)
            subst hs'
            exact modeChange_of_same rfl rfl rfl rfl rfl
        | sparkAccountIdByPubkey pk =>
            obtain ⟨_, hs'⟩ := Prod.mk.inj (Except.ok.inj hrun)
            subst hs'
            exact modeChange_of_same rfl rfl rfl rfl rfl
        | deleteExpiredSignedMessages now =>
            obtain ⟨_, hs'⟩ := Prod.mk.inj (Except.ok.inj hrun)
            subst hs'
            exact modeChange_of_same rfl rfl rfl rfl (KeepsModes.of_rows rfl).getSparkAccountMode

end BlinkLnurl
