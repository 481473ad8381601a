import BlinkLnurl.Server.ModeEvents

/-!
# The mode as a state machine

The mode record of a pubkey after any run, read off the log of the run
(`ModeHistory`): the anchor is the timestamp of the last accepted mode request,
the mode is the one it declared, and where nothing was declared it is `enhanced`
if the server has filled it in and unset otherwise. The run is of any programs
that call the store, in any order.
-/

namespace BlinkLnurl

open Conc Rel AccountStore

/-- The mode requests for a pubkey that were accepted, in order. -/
def acceptedFor (pubkey : String) (log : List CallEvent) : List SparkModeUpdate :=
  log.filterMap fun ev => (acceptedMode ev).filter fun update => update.pubkey = pubkey

/-- The pubkey has been seen. -/
def Known (pubkey : String) (log : List CallEvent) : Prop :=
  ∃ ev ∈ log, introducedSpark ev = some pubkey

/-- The server has filled in the mode of a pubkey that had been seen. -/
def Filled (pubkey : String) (log : List CallEvent) : Prop :=
  ∃ before ev after, log = before ++ ev :: after ∧ filledMode ev = some pubkey ∧
    Known pubkey before

section Log

variable {pubkey : String} {log : List CallEvent} {ev : CallEvent}

theorem acceptedFor_concat_self {update : SparkModeUpdate} (h : acceptedMode ev = some update)
    (hpk : update.pubkey = pubkey) :
    acceptedFor pubkey (log ++ [ev]) = acceptedFor pubkey log ++ [update] := by
  have hev : ((acceptedMode ev).filter fun update => update.pubkey = pubkey) = some update := by
    rw [h]
    exact if_pos (decide_eq_true hpk)
  unfold acceptedFor
  rw [List.filterMap_append]
  exact congrArg _ (List.filterMap_cons_some hev)

theorem acceptedFor_concat_other
    (h : ∀ update, acceptedMode ev = some update → update.pubkey ≠ pubkey) :
    acceptedFor pubkey (log ++ [ev]) = acceptedFor pubkey log := by
  have hev : ((acceptedMode ev).filter fun update => update.pubkey = pubkey) = none := by
    cases haccept : acceptedMode ev with
    | none => rfl
    | some update => exact if_neg fun hpk => h update haccept (of_decide_eq_true hpk)
  unfold acceptedFor
  rw [List.filterMap_append, ← List.append_nil (List.filterMap _ log)]
  refine congrArg₂ _ (List.append_nil _) ?_
  exact List.filterMap_cons_none hev

theorem known_concat :
    Known pubkey (log ++ [ev]) ↔ Known pubkey log ∨ introducedSpark ev = some pubkey := by
  unfold Known
  constructor
  · intro ⟨e, he, hpk⟩
    rcases List.mem_append.mp he with he | he
    · exact Or.inl ⟨e, he, hpk⟩
    · rw [List.mem_singleton.mp he] at hpk
      exact Or.inr hpk
  · intro h
    rcases h with ⟨e, he, hpk⟩ | hpk
    · exact ⟨e, List.mem_append_left _ he, hpk⟩
    · exact ⟨ev, List.mem_append_right _ (List.mem_singleton.mpr rfl), hpk⟩

theorem filled_concat :
    Filled pubkey (log ++ [ev]) ↔
      Filled pubkey log ∨ filledMode ev = some pubkey ∧ Known pubkey log := by
  constructor
  · intro ⟨before, e, after, heq, hfill, hknown⟩
    rcases List.eq_nil_or_concat after with rfl | ⟨after, last, rfl⟩
    · obtain ⟨rfl, hlast⟩ := List.append_inj' heq rfl
      obtain rfl : ev = e := (List.cons.inj hlast).1
      exact Or.inr ⟨hfill, hknown⟩
    · have hsplit : log ++ [ev] = (before ++ e :: after) ++ [last] := by
        rw [heq, List.concat_eq_append]
        simp
      exact Or.inl ⟨before, e, after, (List.append_inj' hsplit rfl).1, hfill, hknown⟩
  · intro h
    rcases h with ⟨before, e, after, rfl, hfill, hknown⟩ | ⟨hfill, hknown⟩
    · exact ⟨before, e, after ++ [ev], by simp, hfill, hknown⟩
    · exact ⟨log, ev, [], rfl, hfill, hknown⟩

end Log

/-- What the log of a run says about the mode record of a pubkey. -/
structure ModeHistory (pubkey : String) (log : List CallEvent) (stored : Option SparkAccountMode) :
    Prop where
  known : Known pubkey log ↔ stored ≠ none
  unseen : stored = none → acceptedFor pubkey log = []
  increasing : (acceptedFor pubkey log).Pairwise fun u v => u.clientTimestamp < v.clientTimestamp
  anchor : ∀ record, stored = some record → record.modeLastTimestamp =
    (acceptedFor pubkey log).getLast?.map SparkModeUpdate.clientTimestamp
  declared : ∀ record update, stored = some record →
    (acceptedFor pubkey log).getLast? = some update → record.mode = some update.mode
  filled : ∀ record, stored = some record → acceptedFor pubkey log = [] →
    Filled pubkey log → record.mode = some .enhanced
  unset : ∀ record, stored = some record → acceptedFor pubkey log = [] →
    ¬ Filled pubkey log → record.mode = none
  evidence : ∀ record, stored = some record → record.mode ≠ some .enhanced →
    record.country = none ∧ record.countryUpdatedAt = none

section Machine

variable {pubkey : String} {log : List CallEvent} {ev : CallEvent}
  {old new stored : Option SparkAccountMode} {record : SparkAccountMode}

/-- Country evidence goes with the mode. -/
theorem acceptMode_evidence {update : SparkModeUpdate} {now : Int}
    (h : (acceptMode now update record).mode ≠ some .enhanced) :
    (acceptMode now update record).country = none ∧
      (acceptMode now update record).countryUpdatedAt = none := by
  have hanon : update.mode = .anon := by
    cases hmode : update.mode with
    | anon => rfl
    | enhanced =>
        refine absurd ?_ h
        show some update.mode = _
        rw [hmode]
  simp [acceptMode, hanon]

theorem filledMode_of_refused {update : SparkModeUpdate} (h : refusedMode ev = some update) :
    filledMode ev = none := by
  unfold refusedMode at h
  split at h
  · rfl
  · exact nomatch h

/-- The last accepted request has the greatest timestamp. -/
theorem ModeHistory.greatest (h : ModeHistory pubkey log stored) {update last : SparkModeUpdate}
    (hlast : (acceptedFor pubkey log).getLast? = some last)
    (hmem : update ∈ acceptedFor pubkey log) : update.clientTimestamp ≤ last.clientTimestamp := by
  obtain ⟨front, hfront⟩ := List.getLast?_eq_some_iff.mp hlast
  have hpair := h.increasing
  rw [hfront] at hmem hpair
  rcases List.mem_append.mp hmem with hmem | hmem
  · exact le_of_lt
      ((List.pairwise_append.mp hpair).2.2 update hmem last (List.mem_singleton.mpr rfl))
  · rw [List.mem_singleton.mp hmem]

theorem ModeHistory.empty : ModeHistory pubkey [] none where
  known := ⟨fun ⟨_, hev, _⟩ => absurd hev List.not_mem_nil, fun h => absurd rfl h⟩
  unseen := fun _ => rfl
  increasing := List.Pairwise.nil
  anchor := fun _ h => nomatch h
  declared := fun _ _ h => nomatch h
  filled := fun _ h => nomatch h
  unset := fun _ h => nomatch h
  evidence := fun _ h => nomatch h

/-- A call that is no accepted request and leaves the record in place only has
to answer for fills and country writes. -/
theorem ModeHistory.keep (h : ModeHistory pubkey log old)
    (haccept : ∀ update, acceptedMode ev = some update → update.pubkey ≠ pubkey)
    (hknown : Known pubkey (log ++ [ev]) ↔ new ≠ none)
    (hsame : ∀ record, new = some record → ∃ before, old = some before ∧
      record.modeLastTimestamp = before.modeLastTimestamp ∧
      (record.mode = before.mode ∧ (filledMode ev = some pubkey → before.mode ≠ none) ∨
        record.mode = some .enhanced ∧ before.mode = none ∧ filledMode ev = some pubkey) ∧
      (record.mode ≠ some .enhanced → record.country = before.country ∧
        record.countryUpdatedAt = before.countryUpdatedAt ∧ before.mode ≠ some .enhanced)) :
    ModeHistory pubkey (log ++ [ev]) new := by
  have hlist : acceptedFor pubkey (log ++ [ev]) = acceptedFor pubkey log :=
    acceptedFor_concat_other haccept
  refine ⟨hknown, ?_, ?_, ?_, ?_, ?_, ?_, ?_⟩
  · intro hnone
    rw [hlist]
    refine h.unseen (by_contra fun hsome => ?_)
    exact hknown.mp (known_concat.mpr (Or.inl (h.known.mpr hsome))) hnone
  · rw [hlist]
    exact h.increasing
  · intro record hrecord
    obtain ⟨before, hbefore, hanchor, _⟩ := hsame record hrecord
    rw [hlist, hanchor]
    exact h.anchor before hbefore
  · intro record update hrecord hlast
    obtain ⟨before, hbefore, _, hmode, _⟩ := hsame record hrecord
    rw [hlist] at hlast
    have hdeclared := h.declared before update hbefore hlast
    rcases hmode with ⟨hmode, _⟩ | ⟨_, hnone, _⟩
    · rw [hmode]
      exact hdeclared
    · exact nomatch hnone.symm.trans hdeclared
  · intro record hrecord hempty hfilled
    obtain ⟨before, hbefore, _, hmode, _⟩ := hsame record hrecord
    rw [hlist] at hempty
    rcases hmode with ⟨hmode, hno⟩ | ⟨hmode, _⟩
    · rw [hmode]
      rcases filled_concat.mp hfilled with hfilled | ⟨hfill, _⟩
      · exact h.filled before hbefore hempty hfilled
      · -- a fill that found a mode found the one the server had filled in
        by_cases hearlier : Filled pubkey log
        · exact h.filled before hbefore hempty hearlier
        · exact absurd (h.unset before hbefore hempty hearlier) (hno hfill)
    · exact hmode
  · intro record hrecord hempty hfilled
    obtain ⟨before, hbefore, _, hmode, _⟩ := hsame record hrecord
    rw [hlist] at hempty
    have hearlier : ¬ Filled pubkey log := fun h => hfilled (filled_concat.mpr (Or.inl h))
    rcases hmode with ⟨hmode, _⟩ | ⟨_, _, hfill⟩
    · rw [hmode]
      exact h.unset before hbefore hempty hearlier
    · have hseen : Known pubkey log := h.known.mpr (by rw [hbefore]; exact Option.some_ne_none _)
      exact absurd (filled_concat.mpr (Or.inr ⟨hfill, hseen⟩)) hfilled
  · intro record hrecord hmode
    obtain ⟨before, hbefore, _, _, hcountry⟩ := hsame record hrecord
    obtain ⟨hc, hu, hno⟩ := hcountry hmode
    rw [hc, hu]
    exact h.evidence before hbefore hno

/-- An accepted request is newer than all accepted before it. -/
theorem ModeHistory.newer (h : ModeHistory pubkey log (some record)) {timestamp : Int}
    (hold : record.OlderThan timestamp) {update : SparkModeUpdate}
    (hmem : update ∈ acceptedFor pubkey log) : update.clientTimestamp < timestamp := by
  obtain ⟨last, hlast⟩ := Option.isSome_iff_exists.mp
    (List.getLast?_isSome.mpr (List.ne_nil_of_mem hmem))
  have hanchor := h.anchor record rfl
  rw [hlast] at hanchor
  have hlt : last.clientTimestamp < timestamp := hold _ hanchor
  have hle := h.greatest hlast hmem
  omega

theorem ModeHistory.accept {update : SparkModeUpdate} {now : Int}
    (h : ModeHistory pubkey log (some record)) (haccept : acceptedMode ev = some update)
    (hintro : introducedSpark ev = none) (hpk : update.pubkey = pubkey)
    (hold : record.OlderThan update.clientTimestamp) :
    ModeHistory pubkey (log ++ [ev]) (some (acceptMode now update record)) := by
  have hlist : acceptedFor pubkey (log ++ [ev]) = acceptedFor pubkey log ++ [update] :=
    acceptedFor_concat_self haccept hpk
  refine ⟨?_, fun hnone => (nomatch hnone), ?_, ?_, ?_, ?_, ?_, ?_⟩
  · rw [known_concat, hintro]
    have hseen : Known pubkey log := h.known.mpr (Option.some_ne_none _)
    exact ⟨fun _ => Option.some_ne_none _, fun _ => Or.inl hseen⟩
  · rw [hlist]
    refine List.pairwise_append.mpr ⟨h.increasing, List.pairwise_singleton _ _, ?_⟩
    intro earlier hearlier last hlast
    rw [List.mem_singleton.mp hlast]
    exact h.newer hold hearlier
  · intro new hnew
    obtain rfl := Option.some.inj hnew
    rw [hlist, List.getLast?_concat]
    rfl
  · intro new last hnew hlast
    obtain rfl := Option.some.inj hnew
    rw [hlist, List.getLast?_concat] at hlast
    obtain rfl := Option.some.inj hlast
    rfl
  · intro _ _ hempty
    rw [hlist] at hempty
    exact absurd hempty (List.append_ne_nil_of_right_ne_nil _ (List.cons_ne_nil _ _))
  · intro _ _ hempty
    rw [hlist] at hempty
    exact absurd hempty (List.append_ne_nil_of_right_ne_nil _ (List.cons_ne_nil _ _))
  · intro new hnew hmode
    obtain rfl := Option.some.inj hnew
    exact acceptMode_evidence hmode

theorem Filled.known (h : Filled pubkey log) : Known pubkey log := by
  obtain ⟨before, e, after, rfl, _, ev, hev, hpk⟩ := h
  exact ⟨ev, List.mem_append_left _ hev, hpk⟩

/-- A pubkey seen for the first time. -/
theorem ModeHistory.create {id : String} (h : ModeHistory pubkey log none)
    (haccept : acceptedMode ev = none) (hfill : filledMode ev = none)
    (hintro : introducedSpark ev = some pubkey) :
    ModeHistory pubkey (log ++ [ev]) (some (unsetMode id pubkey)) := by
  have hempty : acceptedFor pubkey (log ++ [ev]) = [] := by
    rw [acceptedFor_concat_other fun _ hupdate => nomatch haccept.symm.trans hupdate]
    exact h.unseen rfl
  have hunfilled : ¬ Filled pubkey (log ++ [ev]) := by
    rw [filled_concat]
    intro h'
    rcases h' with hfilled | ⟨hev, _⟩
    · exact h.known.mp hfilled.known rfl
    · exact nomatch hfill.symm.trans hev
  refine ⟨?_, fun hnone => (nomatch hnone), ?_, ?_, ?_, ?_, ?_, ?_⟩
  · rw [known_concat]
    exact ⟨fun _ => Option.some_ne_none _, fun _ => Or.inr hintro⟩
  · rw [hempty]
    exact List.Pairwise.nil
  · intro record hrecord
    obtain rfl := Option.some.inj hrecord
    rw [hempty]
    rfl
  · intro _ _ _ hlast
    rw [hempty] at hlast
    exact nomatch hlast
  · exact fun _ _ _ hfilled => absurd hfilled hunfilled
  · intro record hrecord _ _
    obtain rfl := Option.some.inj hrecord
    rfl
  · intro record hrecord _
    obtain rfl := Option.some.inj hrecord
    exact ⟨rfl, rfl⟩

/-- The step lemma: each call keeps the history. -/
theorem ModeHistory.push (h : ModeHistory pubkey log old) (change : ModeChange pubkey old new ev) :
    ModeHistory pubkey (log ++ [ev]) new := by
  have noAccept : acceptedMode ev = none →
      ∀ update, acceptedMode ev = some update → update.pubkey ≠ pubkey := by
    intro hnone update hupdate
    exact nomatch hnone.symm.trans hupdate
  have unintroduced : introducedSpark ev = none →
      (Known pubkey (log ++ [ev]) ↔ old ≠ none) := by
    intro hintro
    rw [known_concat, hintro, h.known]
    exact or_iff_left fun h => nomatch h
  -- a record nobody touches
  have unchanged :
      (filledMode ev = some pubkey → ∀ record, old = some record → record.mode ≠ none) →
      ∀ record, old = some record → ∃ before, old = some before ∧
        record.modeLastTimestamp = before.modeLastTimestamp ∧
        (record.mode = before.mode ∧ (filledMode ev = some pubkey → before.mode ≠ none) ∨
          record.mode = some .enhanced ∧ before.mode = none ∧ filledMode ev = some pubkey) ∧
        (record.mode ≠ some .enhanced → record.country = before.country ∧
          record.countryUpdatedAt = before.countryUpdatedAt ∧ before.mode ≠ some .enhanced) := by
    intro hfill record hrecord
    exact ⟨record, hrecord, rfl, Or.inl ⟨rfl, fun h => hfill h record hrecord⟩,
      fun hmode => ⟨rfl, rfl, hmode⟩⟩
  cases change with
  | accepts update record now haccept hintro hpk hold holder hnew =>
      subst hold
      rw [hnew]
      exact h.accept haccept hintro hpk holder
  | refuses update haccept hrefuse hintro hpk hnewer hnew =>
      subst hnew
      refine h.keep (noAccept haccept) (unintroduced hintro) (unchanged fun hfill => ?_)
      rw [filledMode_of_refused hrefuse] at hfill
      exact nomatch hfill
  | fills record now haccept hfill hintro hold hmode hnew =>
      refine h.keep (noAccept haccept) ?_ ?_
      · rw [unintroduced hintro, hold, hnew]
        exact iff_of_true (Option.some_ne_none _) (Option.some_ne_none _)
      · intro new hsome
        obtain rfl := Option.some.inj (hnew.symm.trans hsome)
        exact ⟨record, hold, rfl, Or.inr ⟨rfl, hmode, hfill⟩, fun hno => absurd rfl hno⟩
  | refreshes record now country haccept hfill hintro hold hmode hnew =>
      refine h.keep (noAccept haccept) ?_ ?_
      · rw [unintroduced hintro, hold, hnew]
        exact iff_of_true (Option.some_ne_none _) (Option.some_ne_none _)
      · intro new hsome
        obtain rfl := Option.some.inj (hnew.symm.trans hsome)
        refine ⟨record, hold, rfl, Or.inl ⟨rfl, fun h => nomatch hfill.symm.trans h⟩, ?_⟩
        exact fun hno => absurd hmode hno
  | creates id haccept hfill hintro hold hnew =>
      subst hold
      rw [hnew]
      exact h.create haccept hfill hintro
  | keeps hrequest hfill hintro hnew =>
      subst hnew
      refine h.keep (fun update hupdate => hrequest update (Or.inl hupdate)) ?_ (unchanged hfill)
      rw [known_concat, h.known]
      exact or_iff_left_of_imp hintro

end Machine

/-! ## Runs -/

/-- Registrations go by pubkey: the caller gives no account id. -/
def byPubkey : History → CallEvent → Prop := fun _ ev => ∀ op, ev.call = .account op → op.ByPubkey

/-- The last timestamp a pubkey has had accepted. -/
def World.anchor (w : World) (pubkey : String) : Option Int :=
  (w.accounts.getSparkAccountMode pubkey).bind SparkAccountMode.modeLastTimestamp

/-- The log tells the records of all pubkeys, now and whenever one was read. -/
structure ModeRun (h : History) : Prop where
  inv : RepInv h.state.accounts
  modes : ∀ pubkey, ModeHistory pubkey h.log (h.state.accounts.getSparkAccountMode pubkey)
  reads : ∀ before i pubkey record after, h.log =
    before ++ ⟨i, .account (.getSparkAccountMode pubkey), .ok record⟩ :: after →
      ModeHistory pubkey before record

theorem ModeRun.fresh {clock : Clock} : ModeRun ⟨World.fresh clock, []⟩ where
  inv := RepInv.empty
  modes := fun _ => ModeHistory.empty
  reads := fun before _ _ _ _ h => absurd h.symm (List.append_ne_nil_of_right_ne_nil before
    (List.cons_ne_nil _ _))

/-- A read answers with the record stored. -/
theorem exec_getSparkAccountMode {w w' : World} {pubkey : String} {ch : StoreChoice}
    {record : Option SparkAccountMode}
    (h : exec (.account (.getSparkAccountMode pubkey)) ch w = some (.ok record, w')) :
    w' = w ∧ record = w.accounts.getSparkAccountMode pubkey := by
  rcases execAccount_cases h with ⟨_, _, hr⟩ | ⟨a, s', hr, hrun, hw, _⟩
  · exact nomatch hr
  · obtain ⟨ha, hs⟩ := Prod.mk.inj (Except.ok.inj hrun)
    refine ⟨by rw [hw, ← hs], ?_⟩
    rw [Except.ok.inj hr, ← ha]

theorem ModeRun.call {h : History} {i : Nat} {c : Call} {ch : Choice c} {r : Reply c} {w : World}
    (run : ModeRun h) (hby : ∀ op, c = .account op → op.ByPubkey)
    (hexec : exec c ch h.state = some (r, w)) : ModeRun (h.push ⟨i, c, r⟩ w) where
  inv := exec_repInv run.inv hby hexec
  modes := fun pubkey => (run.modes pubkey).push (exec_mode run.inv hby hexec pubkey)
  reads := fun before j pubkey record after hlog => by
    rcases List.eq_nil_or_concat after with rfl | ⟨after, last, rfl⟩
    · -- the call is the read
      obtain ⟨rfl, hlast⟩ := List.append_inj' hlog rfl
      obtain ⟨rfl, hcall⟩ := Event.mk.inj (List.cons.inj hlast).1
      obtain ⟨rfl, hr⟩ := hcall
      obtain rfl := eq_of_heq hr
      obtain ⟨_, rfl⟩ := exec_getSparkAccountMode hexec
      exact run.modes pubkey
    · have hsplit : h.log ++ [⟨i, c, r⟩] =
          (before ++ ⟨j, .account (.getSparkAccountMode pubkey), .ok record⟩ :: after) ++
            [last] := by
        rw [← Hist.push_log, hlog, List.concat_eq_append, List.append_assoc]
        rfl
      exact run.reads before j pubkey record after (List.append_inj' hsplit rfl).1

theorem ModeRun.tick {h : History} {t : Nat} {w : World} (run : ModeRun h)
    (htick : semantics.tick t h.state = some w) : ModeRun { h with state := w } := by
  obtain ⟨haccounts, _⟩ := tick_cases htick
  refine ⟨?_, fun pubkey => ?_, run.reads⟩
  · show RepInv w.accounts
    rw [haccounts]
    exact run.inv
  · show ModeHistory pubkey h.log (w.accounts.getSparkAccountMode pubkey)
    rw [haccounts]
    exact run.modes pubkey

section Runs

variable {ρ ω : Type} {programs : ρ → Handler ω} {cfg cfg' : Config ρ Call Reply ApiError ω World}

theorem ModeRun.step (run : ModeRun cfg.hist) (hstep : Step semantics byPubkey programs cfg cfg') :
    ModeRun cfg'.hist := by
  cases hstep with
  | accept => exact run
  | call _ hexec hok => exact run.call hok hexec
  | tick htick => exact run.tick htick

theorem ModeRun.steps (run : ModeRun cfg.hist)
    (hsteps : Steps semantics byPubkey programs cfg cfg') : ModeRun cfg'.hist := by
  induction hsteps with
  | refl => exact run
  | tail _ hstep ih => exact ih.step hstep

/-- The anchor is the timestamp of the last accepted request. -/
theorem ModeHistory.anchor_eq {pubkey : String} {log : List CallEvent}
    {stored : Option SparkAccountMode} (h : ModeHistory pubkey log stored) :
    stored.bind SparkAccountMode.modeLastTimestamp =
      (acceptedFor pubkey log).getLast?.map SparkModeUpdate.clientTimestamp := by
  cases stored with
  | none =>
      rw [h.unseen rfl]
      rfl
  | some record => exact h.anchor record rfl

/-- The anchor never goes back. -/
theorem ModeRun.anchor_le (run : ModeRun cfg.hist)
    (hsteps : Steps semantics byPubkey programs cfg cfg') {pubkey : String} {t : Int}
    (ht : cfg.hist.state.anchor pubkey = some t) :
    ∃ t', cfg'.hist.state.anchor pubkey = some t' ∧ t ≤ t' := by
  have run' := run.steps hsteps
  unfold World.anchor at ht ⊢
  rw [(run.modes pubkey).anchor_eq] at ht
  rw [(run'.modes pubkey).anchor_eq]
  obtain ⟨update, hupdate, rfl⟩ := Option.map_eq_some_iff.mp ht
  have hprefix : acceptedFor pubkey cfg.hist.log <+: acceptedFor pubkey cfg'.hist.log :=
    hsteps.log_prefix.filterMap _
  have hmem := hprefix.subset (List.mem_of_getLast? hupdate)
  obtain ⟨last, hlast⟩ := Option.isSome_iff_exists.mp
    (List.getLast?_isSome.mpr (List.ne_nil_of_mem hmem))
  refine ⟨last.clientTimestamp, ?_, (run'.modes pubkey).greatest hlast hmem⟩
  rw [hlast, Option.map_some]

end Runs

end BlinkLnurl
