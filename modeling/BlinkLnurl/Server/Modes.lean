import BlinkLnurl.Server.ModeContract

/-!
# Modes over whole runs

The mode record of a pubkey over any run of the store, and over runs of the
server (`mode_state_machine`). A route that gives a pubkey a name reads the mode
in one call and writes the name in a later one; a switch to anon in between is
not seen (`no_name_while_anon`).
-/

namespace BlinkLnurl

open Conc Rel AccountStore

/-! ## The mode state machine -/

/-- No call of a mode request that is not newer than the anchor changes
anything. -/
theorem upsertSparkMode_stale {w : World} {update : SparkModeUpdate} {t : Int}
    (ht : w.anchor update.pubkey = some t) (hstale : update.clientTimestamp ≤ t) :
    (upsertSparkMode update).Calls fun c =>
      ∀ ch r w', exec c ch w = some (r, w') → w' = w := by
  obtain ⟨record, hrecord, hanchor⟩ := Option.bind_eq_some_iff.mp ht
  have hstored : w.accounts.getSparkAccountMode update.pubkey ≠ none := by
    rw [hrecord]
    exact Option.some_ne_none _
  refine calls_upsertSparkMode ?_ ?_ ?_ ?_
  · intro ch r w' hexec
    rcases execAccount_cases hexec with ⟨rfl, _⟩ | ⟨a, s', _, hrun, rfl, _⟩
    · rfl
    · obtain ⟨_, rfl⟩ := Prod.mk.inj (Except.ok.inj hrun)
      rfl
  · intro ch r w' hexec
    rcases execAccount_cases hexec with ⟨rfl, _⟩ | ⟨a, s', _, hrun, rfl, _⟩
    · rfl
    · rw [insertSparkAccount_of_stored hstored (map_unit_ok hrun)]
  · intro ch r w' hexec
    rcases execAccount_cases hexec with ⟨rfl, _⟩ | ⟨a, s', _, hrun, rfl, _⟩
    · rfl
    · have hs' : s' = (updateSparkMode (w.ctx ch.generatedId) update w.accounts).2 :=
        (Prod.mk.inj (Except.ok.inj hrun)).2.symm
      have hrefused : (updateSparkMode (w.ctx ch.generatedId) update w.accounts).1 = false := by
        rw [← Bool.not_eq_true, updateSparkMode_written]
        intro ⟨record', hrecord', hold⟩
        obtain rfl := Option.some.inj (hrecord.symm.trans hrecord')
        have hlt : t < update.clientTimestamp := hold t hanchor
        omega
      rw [hs', updateSparkMode_of_refused hrefused]
  · intro ch r w' hexec
    rcases execAccount_cases hexec with ⟨rfl, _⟩ | ⟨a, s', _, hrun, rfl, _⟩
    · rfl
    · obtain ⟨_, rfl⟩ := Prod.mk.inj (Except.ok.inj hrun)
      rfl

/-- In every run of programs over the store the record of a pubkey is what the
log says (`ModeHistory`), the accepted request it shows is the one with the
greatest timestamp, the anchor never goes back, and a request that is not newer
changes nothing. On the server no anchor is more than 30 s ahead of the clock. -/
theorem mode_state_machine (clock : Clock) :
    (∀ {ρ ω : Type} {programs : ρ → Handler ω} {cfg : Config ρ Call Reply ApiError ω World},
      Reachable semantics byPubkey programs (World.fresh clock) cfg → ∀ pubkey,
        ModeHistory pubkey cfg.hist.log (cfg.hist.state.accounts.getSparkAccountMode pubkey) ∧
        (∀ update last, update ∈ acceptedFor pubkey cfg.hist.log →
          (acceptedFor pubkey cfg.hist.log).getLast? = some last →
            update.clientTimestamp ≤ last.clientTimestamp) ∧
        (∀ cfg', Steps semantics byPubkey programs cfg cfg' → ∀ t,
          cfg.hist.state.anchor pubkey = some t →
            ∃ t', cfg'.hist.state.anchor pubkey = some t' ∧ t ≤ t') ∧
        ∀ update t, update.pubkey = pubkey → cfg.hist.state.anchor pubkey = some t →
          update.clientTimestamp ≤ t → (upsertSparkMode update).Calls fun c =>
            ∀ ch r w', exec c ch cfg.hist.state = some (r, w') → w' = cfg.hist.state) ∧
    ∀ {state : State} {cfg : Server},
      Reachable semantics always (handler state) (World.fresh clock) cfg → ∀ pubkey t,
        cfg.hist.state.anchor pubkey = some t → t ≤ cfg.hist.state.clock.secs + 30 := by
  constructor
  · intro ρ ω programs cfg hreach pubkey
    have run : ModeRun cfg.hist := ModeRun.fresh.steps hreach
    refine ⟨run.modes pubkey, ?_, ?_, ?_⟩
    · intro update last hmem hlast
      exact (run.modes pubkey).greatest hlast hmem
    · intro cfg' hsteps t ht
      exact run.anchor_le hsteps ht
    · intro update t hpk ht hstale
      subst hpk
      exact upsertSparkMode_stale ht hstale
  · intro state cfg hreach pubkey t ht
    have hcfg := Reachable.sound (mode_outline state) (modes_initial clock) hreach
    exact hcfg.inv.anchors pubkey t ht

/-! ## Names for anon pubkeys -/

/-- The pubkey that a call has given a name to, by a statement of its user. -/
def namedFor : CallEvent → Option String
  | ⟨_, .account op, .ok _⟩ => op.receiver
  | _ => none

/-- A name is given to no pubkey whose mode is anon. -/
def NoNameWhileAnon (h : History) (ev : CallEvent) : Prop :=
  ∀ pubkey, namedFor ev = some pubkey →
    (h.state.accounts.getSparkAccountMode pubkey).bind SparkAccountMode.mode ≠ some .anon

/-- Since thread `i` read the mode of the pubkey, mode requests for it were
accepted, and the last of them declared anon. -/
def SwitchedSince (i : Nat) (pubkey : String) (log : List CallEvent) : Prop :=
  ∃ before record since last,
    log = before ++ ⟨i, .account (.getSparkAccountMode pubkey), .ok record⟩ :: since ∧
      (acceptedFor pubkey since).getLast? = some last ∧ last.mode = .anon

/-- No pubkey was switched to anon between the mode check of a route and its
write. -/
def Unswitched (h : History) (ev : CallEvent) : Prop :=
  ∀ pubkey, namedFor ev = some pubkey → ¬ SwitchedSince ev.thread pubkey h.log

section Names

variable {pubkey : String} {i : Nat} {record stored : Option SparkAccountMode}
  {before since : List CallEvent}

/-- A read is no mode request. -/
theorem acceptedFor_read :
    acceptedFor pubkey
        (before ++ ⟨i, .account (.getSparkAccountMode pubkey), .ok record⟩ :: since) =
      acceptedFor pubkey before ++ acceptedFor pubkey since := by
  unfold acceptedFor
  rw [List.filterMap_append]
  exact congrArg _ (List.filterMap_cons_none rfl)

/-- The mode is the one last accepted. -/
theorem ModeHistory.mode_of_last {log : List CallEvent} {last : SparkModeUpdate}
    (h : ModeHistory pubkey log stored) (hlast : (acceptedFor pubkey log).getLast? = some last) :
    stored.bind SparkAccountMode.mode = some last.mode := by
  cases stored with
  | none =>
      rw [h.unseen rfl] at hlast
      exact nomatch hlast
  | some record => exact h.declared record last rfl hlast

/-- Where nothing was accepted the mode is not anon. -/
theorem ModeHistory.not_anon {log : List CallEvent} (h : ModeHistory pubkey log stored)
    (hempty : acceptedFor pubkey log = []) :
    stored.bind SparkAccountMode.mode ≠ some .anon := by
  intro hanon
  obtain ⟨record, hrecord, hmode⟩ := Option.bind_eq_some_iff.mp hanon
  by_cases hfilled : Filled pubkey log
  · exact absurd (hmode.symm.trans (h.filled record hrecord hempty hfilled)) (by decide)
  · exact nomatch hmode.symm.trans (h.unset record hrecord hempty hfilled)

/-- The mode is anon iff the pubkey was switched since it was read not to be. -/
theorem anon_iff_switchedSince (hread : ModeHistory pubkey before record)
    (hnow : ModeHistory pubkey
      (before ++ ⟨i, .account (.getSparkAccountMode pubkey), .ok record⟩ :: since) stored)
    (hmode : record.bind SparkAccountMode.mode ≠ some .anon) :
    stored.bind SparkAccountMode.mode = some .anon ↔
      SwitchedSince i pubkey
        (before ++ ⟨i, .account (.getSparkAccountMode pubkey), .ok record⟩ :: since) := by
  constructor
  · intro hanon
    cases hsince : (acceptedFor pubkey since).getLast? with
    | some last =>
        refine ⟨before, record, since, last, rfl, hsince, ?_⟩
        have hlast : stored.bind SparkAccountMode.mode = some last.mode := by
          refine hnow.mode_of_last ?_
          rw [acceptedFor_read, List.getLast?_append, hsince, Option.some_or]
        exact Option.some.inj (hlast.symm.trans hanon)
    | none =>
        -- nothing was accepted since the read, so the mode has not become anon
        have hempty : acceptedFor pubkey since = [] := List.getLast?_eq_none_iff.mp hsince
        cases hbefore : (acceptedFor pubkey before).getLast? with
        | none =>
            refine absurd hanon (hnow.not_anon ?_)
            rw [acceptedFor_read, hempty, List.getLast?_eq_none_iff.mp hbefore, List.nil_append]
        | some last =>
            have hthen := hread.mode_of_last hbefore
            have hlast : stored.bind SparkAccountMode.mode = some last.mode := by
              refine hnow.mode_of_last ?_
              rw [acceptedFor_read, hempty, List.append_nil, hbefore]
            exact absurd (hthen.trans (hlast.symm.trans hanon)) hmode
  · intro ⟨before', record', since', last, hlog, hlast, hanon⟩
    rw [← hanon]
    refine hnow.mode_of_last ?_
    rw [hlog, acceptedFor_read, List.getLast?_append, hlast, Option.some_or]

end Names

section Runs

variable {state : State} {clock : Clock} {cfg : Server}

theorem noNameWhileAnon_iff
    (hreach : Reachable semantics always (handler state) (World.fresh clock) cfg) {i : Nat}
    {q : Request} {c : Call} {k : Reply c → Handler Response} {r : Reply c}
    (hth : cfg.threads[i]? = some ⟨q, .call c k⟩) :
    NoNameWhileAnon cfg.hist ⟨i, c, r⟩ ↔ Unswitched cfg.hist ⟨i, c, r⟩ := by
  have hcfg := Reachable.sound (mode_outline state) (modes_initial clock) hreach
  have run := reachable_modeRun hreach
  refine forall_congr' fun pubkey => forall_congr' fun hnamed => not_congr ?_
  obtain ⟨record, hmem, hmode⟩ : FoundNotAnon i pubkey cfg.hist := by
    cases c with
    | account op =>
        cases r with
        | ok a => exact (hcfg.guard modeContract_lawful.toKeeps hth op rfl).found pubkey hnamed
        | error e => exact nomatch hnamed
    | payment op => exact nomatch hnamed
    | env op => exact nomatch hnamed
  obtain ⟨before, since, hlog⟩ := List.append_of_mem (Hist.mem_callsOf.mp hmem).1
  have hnow := run.modes pubkey
  rw [hlog] at hnow ⊢
  exact anon_iff_switchedSince (run.reads before i pubkey record since hlog) hnow hmode

/-- At each call of a run of the server, a name is given to no anon pubkey
exactly if the pubkey was not switched to anon since the route checked its mode.
So the runs without a switch in between are the runs in which no anon pubkey
gets a name. -/
theorem no_name_while_anon
    (hreach : Reachable semantics always (handler state) (World.fresh clock) cfg) :
    (∀ i q c (k : Reply c → Handler Response) ch r w',
      cfg.threads[i]? = some ⟨q, .call c k⟩ → exec c ch cfg.hist.state = some (r, w') →
        (NoNameWhileAnon cfg.hist ⟨i, c, r⟩ ↔ Unswitched cfg.hist ⟨i, c, r⟩)) ∧
    (Reachable semantics Unswitched (handler state) (World.fresh clock) cfg ↔
      Reachable semantics NoNameWhileAnon (handler state) (World.fresh clock) cfg) := by
  have always_of : ∀ {ok : History → CallEvent → Prop} {cfg : Server},
      Reachable semantics ok (handler state) (World.fresh clock) cfg →
        Reachable semantics always (handler state) (World.fresh clock) cfg :=
    fun h => Steps.mono (fun _ _ _ => trivial) h
  refine ⟨fun i q c k ch r w' hth _ => noNameWhileAnon_iff hreach hth, ?_, ?_⟩
  · intro h
    exact h.within fun hpre hth _ hok => (noNameWhileAnon_iff (always_of hpre) hth).mpr hok
  · intro h
    exact h.within fun hpre hth _ hok => (noNameWhileAnon_iff (always_of hpre) hth).mp hok

end Runs

instance (h : History) (ev : CallEvent) : Decidable (NoNameWhileAnon h ev) :=
  decidable_of_iff ((namedFor ev).all fun pubkey =>
      (h.state.accounts.getSparkAccountMode pubkey).bind SparkAccountMode.mode ≠ some .anon) <| by
    unfold NoNameWhileAnon
    cases namedFor ev with
    | none => exact iff_of_true rfl fun _ h => nomatch h
    | some pubkey =>
        rw [Option.all_some, decide_eq_true_eq]
        constructor
        · intro h pk hpk
          rw [← Option.some.inj hpk]
          exact h
        · exact fun h => h pubkey rfl

/-! ## Examples

The owner of a key registers `alice` and switches the key to anon. -/

section Example

open Deployment Schedule

def modeSigned : Deployment :=
  { keys := [ownerKey]
    signed := [(ownerKey, "alice-1000"), (ownerKey, "mode:anon:" ++ ownerKey.hex ++ "-1000")] }

def namesAlice : Request :=
  .register blinkHost ownerKey.hex ⟨"alice", "3006020101020101", 1000, "Pay to alice@d.io"⟩

def switchesToAnon : Request :=
  .setMode blinkHost ownerKey.hex ⟨"anon", "3006020101020101", 1000⟩

def aliceAddress : Response := .address (lightningAddressOf "alice" "d.io")

theorem mode_state_machine_anon :
    ∃ cfg : Server,
      Reachable semantics always (handler modeSigned.state) (World.fresh ⟨1000000, by decide⟩) cfg ∧
      cfg.hist.state.anchor ownerKey.hex = some 1000 ∧
      (1000 : Int) ≤ cfg.hist.state.clock.secs + 30 ∧
      ModeHistory ownerKey.hex cfg.hist.log
        (cfg.hist.state.accounts.getSparkAccountMode ownerKey.hex) := by
  obtain ⟨cfg, hreach, _, hanchor⟩ := modeSigned.reachable_of_run always 1000000 (by decide)
    (serve switchesToAnon ++ calls 0 6 ++ calls 0 1 { generatedId := "acct_2" })
    (fun cfg => cfg.hist.state.anchor ownerKey.hex = some 1000) (by decide +kernel)
  have hanchor : cfg.hist.state.anchor ownerKey.hex = some 1000 := of_decide_eq_true hanchor
  obtain ⟨hruns, hserver⟩ := mode_state_machine ⟨1000000, by decide⟩
  exact ⟨cfg, hreach, hanchor, hserver hreach _ _ hanchor,
    (hruns (reachable_byPubkey hreach) ownerKey.hex).1⟩

/-- A register that nobody interrupts. -/
theorem no_name_while_anon_alice :
    ∃ cfg : Server,
      Reachable semantics Unswitched (handler modeSigned.state)
        (World.fresh ⟨1000000, by decide⟩) cfg ∧ cfg.outcome 0 = some (.ok aliceAddress) := by
  obtain ⟨cfg, hreach, _, hdone⟩ := modeSigned.reachable_of_run NoNameWhileAnon 1000000 (by decide)
    (serve namesAlice ++ calls 0 4) (fun cfg => cfg.outcome 0 = some (.ok aliceAddress))
    (by decide +kernel)
  have hiff := (no_name_while_anon (Steps.mono (fun _ _ _ => trivial) hreach)).2
  exact ⟨cfg, hiff.mpr hreach, of_decide_eq_true hdone⟩

/-- The register reads the mode, the key is switched to anon, the register
writes the name. -/
def registerDuringSwitch : Schedule :=
  serve namesAlice ++ calls 0 3 ++ serve switchesToAnon ++ calls 1 6 ++
    calls 1 1 { generatedId := "acct_2" }

theorem name_given_while_anon :
    ∃ cfg cfg' : Server,
      Reachable semantics always (handler modeSigned.state) (World.fresh ⟨1000000, by decide⟩) cfg ∧
      Step semantics always (handler modeSigned.state) cfg cfg' ∧
      cfg'.request 0 = some namesAlice ∧ cfg'.request 1 = some switchesToAnon ∧
      (cfg.hist.state.accounts.getSparkAccountMode ownerKey.hex).bind SparkAccountMode.mode =
        some .anon ∧
      cfg.outcome 0 = none ∧ cfg'.outcome 0 = some (.ok aliceAddress) ∧
      cfg'.hist.log.getLast?.bind namedFor = some ownerKey.hex ∧
      (cfg'.hist.state.accounts.getSparkAccountMode ownerKey.hex).bind SparkAccountMode.mode =
        some .anon := by
  obtain ⟨cfg, cfg', hreach, hstep, hserved, hbefore, hafter⟩ :=
    modeSigned.step_of_run always 1000000 (by decide) registerDuringSwitch
      (.call 0 (Answers.choice { generatedId := "acct_2" }))
      (fun cfg => (cfg.hist.state.accounts.getSparkAccountMode ownerKey.hex).bind
          SparkAccountMode.mode = some .anon ∧ cfg.outcome 0 = none)
      (fun cfg' => cfg'.outcome 0 = some (.ok aliceAddress) ∧
        cfg'.hist.log.getLast?.bind namedFor = some ownerKey.hex ∧
        (cfg'.hist.state.accounts.getSparkAccountMode ownerKey.hex).bind SparkAccountMode.mode =
          some .anon) (by decide +kernel) (by decide +kernel)
  obtain ⟨hmode, hrunning⟩ := of_decide_eq_true hbefore
  obtain ⟨hdone, hnamed, hmode'⟩ := of_decide_eq_true hafter
  exact ⟨cfg, cfg', hreach, hstep, hserved 0, hserved 1, hmode, hrunning, hdone, hnamed, hmode'⟩

end Example

end BlinkLnurl
