import BlinkLnurl.Server.Server

/-!
# The statements of a request

A register and an unregister carry one signed statement, a transfer carries
two: the current owner's, which authorizes it and is the one claimed, and the
recipient's. What a statement claims is the same whichever request carries it
(`same_authorization`): a message names its time, and a recipient's message
names everything that the owner's message does.
-/

namespace BlinkLnurl

open Conc Text

/-- The domain a request is for. -/
def hostDomain (crates : Crates) (host : Host) : String :=
  lowercase crates (RustStr.trim host.text)

namespace Request

/-- The statement a request is authorized by and the time it was signed at;
`none` for a request that no signed statement authorizes. -/
def authorization (crates : Crates) : Request → Option (Statement × UInt64)
  | register host pubkey payload => do
      let username ← (canonicalSparkUsernameForRoute crates payload.username).toOption
      let signed ← (parseSignedRequest crates pubkey payload.signature).toOption
      let candidate ← (verifyCandidates crates signed.1 signed.2
        (registerCandidates crates (hostDomain crates host) username payload.description
          payload.timestamp) (some (hostDomain crates host))).toOption
      return (⟨signed.1, hostDomain crates host, candidate.message⟩, payload.timestamp)
  | unregister host pubkey payload => do
      let username ← (canonicalSparkUsernameForRoute crates payload.username).toOption
      let signed ← (parseSignedRequest crates pubkey payload.signature).toOption
      let candidate ← (verifyCandidates crates signed.1 signed.2
        (unregisterCandidates (hostDomain crates host) username payload.timestamp)
        (some (hostDomain crates host))).toOption
      return (⟨signed.1, hostDomain crates host, candidate.message⟩, payload.timestamp)
  | transfer host toPubkey payload => do
      let username ← (canonicalSparkUsernameForRoute crates payload.username).toOption
      let source ← (parseSignedRequest crates payload.fromPubkey payload.fromSignature).toOption
      let target ← (parseSignedRequest crates toPubkey payload.toSignature).toOption
      let timestamp ← payload.timestamp
      let candidate ← (verifyCandidates crates source.1 source.2
        (transferFromCandidates (hostDomain crates host) username source.1 target.1 timestamp)
        (some (hostDomain crates host))).toOption
      return (⟨source.1, hostDomain crates host, candidate.message⟩, timestamp)
  | _ => none

/-- The statement of the recipient of a transfer. -/
def acceptance (crates : Crates) : Request → Option Statement
  | transfer host toPubkey payload => do
      let username ← (canonicalSparkUsernameForRoute crates payload.username).toOption
      let source ← (parseSignedRequest crates payload.fromPubkey payload.fromSignature).toOption
      let target ← (parseSignedRequest crates toPubkey payload.toSignature).toOption
      let timestamp ← payload.timestamp
      let candidate ← (verifyCandidates crates target.1 target.2
        (transferToCandidates crates (hostDomain crates host) username source.1 target.1
          payload.description timestamp) (some (hostDomain crates host))).toOption
      return ⟨target.1, hostDomain crates host, candidate.message⟩
  | _ => none

/-- The request carries the statement: the same key, resolved domain and signed
message. -/
def CarriesStatement (crates : Crates) (q : Request) (statement : Statement) : Prop :=
  (q.authorization crates).map Prod.fst = some statement ∨ q.acceptance crates = some statement

instance (crates : Crates) (q : Request) (statement : Statement) :
    Decidable (q.CarriesStatement crates statement) := by
  unfold CarriesStatement
  infer_instance

end Request

/-! ## What the statements say -/

section

variable {crates : Crates} {q q' : Request} {s s' t t' : Statement} {ts ts' : UInt64}

theorem toOption_some {ε α : Type} {x : Except ε α} {a : α} (h : x.toOption = some a) :
    x = .ok a := by
  cases x with
  | error e => cases h
  | ok b =>
      cases h
      rfl

theorem username_of_route {name username : String}
    (h : canonicalSparkUsernameForRoute crates name = .ok username) : Username username :=
  isUsernameText_username (checkedToUsername_ok (canonicalSparkUsernameForRoute_ok h))

/-- The messages that authorize a write. -/
inductive AuthorizingMessage (crates : Crates) (domain : String) (ts : UInt64) : String → Prop
  | register {username} (description : String) : Username username →
      AuthorizingMessage crates domain ts
      (SignedMessage.register crates domain username description ts)
  | legacy {username} : Username username →
      AuthorizingMessage crates domain ts (SignedMessage.legacyTimestamped username ts)
  | unregister {username} :
      AuthorizingMessage crates domain ts (SignedMessage.unregister domain username ts)
  | transferFrom {username} {source target : PublicKey} :
      AuthorizingMessage crates domain ts
      (SignedMessage.transferFrom domain username source.hex target.hex ts)

theorem authorizingMessage (h : q.authorization crates = some (s, ts)) :
    AuthorizingMessage crates s.domain ts s.message := by
  cases q with
  | register host pubkey payload =>
      simp only [Request.authorization, bind, pure, Option.bind_eq_some_iff, Option.some.injEq,
        Prod.mk.injEq] at h
      obtain ⟨username, hu, signed, hs, candidate, hc, rfl, rfl⟩ := h
      have hmem := (firstVerified_mem (verifyCandidates_ok (toOption_some hc))).1
      simp only [registerCandidates, List.mem_cons, List.not_mem_nil, or_false] at hmem
      rcases hmem with rfl | rfl
      · exact .register _ (username_of_route (toOption_some hu))
      · exact .legacy (username_of_route (toOption_some hu))
  | unregister host pubkey payload =>
      simp only [Request.authorization, bind, pure, Option.bind_eq_some_iff, Option.some.injEq,
        Prod.mk.injEq] at h
      obtain ⟨username, hu, signed, hs, candidate, hc, rfl, rfl⟩ := h
      have hmem := (firstVerified_mem (verifyCandidates_ok (toOption_some hc))).1
      simp only [unregisterCandidates, List.mem_singleton] at hmem
      rw [hmem]
      exact .unregister
  | transfer host toPubkey payload =>
      simp only [Request.authorization, bind, pure, Option.bind_eq_some_iff, Option.some.injEq,
        Prod.mk.injEq] at h
      obtain ⟨username, hu, source, hs, target, ht, timestamp, _, candidate, hc, rfl, rfl⟩ := h
      have hmem := (firstVerified_mem (verifyCandidates_ok (toOption_some hc))).1
      simp only [transferFromCandidates, List.mem_singleton] at hmem
      rw [hmem]
      exact .transferFrom
  | _ => cases h

theorem AuthorizingMessage.endsInDecimal {domain message : String}
    (h : AuthorizingMessage crates domain ts message) : EndsInDecimal message ts.toNat := by
  cases h with
  | register => exact SignedMessage.endsInDecimal_message (List.cons_ne_nil _ _)
  | legacy => exact SignedMessage.endsInDecimal_legacy
  | unregister => exact SignedMessage.endsInDecimal_message (List.cons_ne_nil _ _)
  | transferFrom => exact SignedMessage.endsInDecimal_message (List.cons_ne_nil _ _)

/-- The two statements of one transfer. -/
theorem transfer_statements (hs : q.authorization crates = some (s, ts))
    (ht : q.acceptance crates = some t) : ∃ username description, Username username ∧
      s.domain = t.domain ∧
      s.message = SignedMessage.transferFrom t.domain username s.pubkey.hex t.pubkey.hex ts ∧
      t.message = SignedMessage.transferTo crates t.domain username s.pubkey.hex t.pubkey.hex
        description ts := by
  cases q with
  | transfer host toPubkey payload =>
      simp only [Request.authorization, Request.acceptance, bind, pure, Option.bind_eq_some_iff,
        Option.some.injEq, Prod.mk.injEq] at hs ht
      obtain ⟨username, hu, source, hsrc, target, htgt, timestamp, hts, candidate, hc, rfl, rfl⟩ :=
        hs
      obtain ⟨username', hu', source', hsrc', target', htgt', timestamp', hts', candidate',
          hc', rfl⟩ :=
        ht
      cases hu.symm.trans hu'
      cases hsrc.symm.trans hsrc'
      cases htgt.symm.trans htgt'
      cases hts.symm.trans hts'
      have hmem := (firstVerified_mem (verifyCandidates_ok (toOption_some hc))).1
      have hmem' := (firstVerified_mem (verifyCandidates_ok (toOption_some hc'))).1
      simp only [transferFromCandidates, transferToCandidates, List.mem_singleton] at hmem hmem'
      rw [hmem, hmem']
      exact ⟨username, _, username_of_route (toOption_some hu), rfl, rfl, rfl⟩
  | _ => cases ht

theorem Username.no_newline {u : String} (hu : Username u) : '\n' ∉ u.toList :=
  hu.not_mem (by decide)

theorem PublicKey.no_newline (k : PublicKey) : '\n' ∉ k.hex.toList := by
  intro hk
  exact absurd (k.digits _ hk) (by decide)

theorem PublicKey.eq_of_hex {k k' : PublicKey} (h : k.hex = k'.hex) : k = k' := by
  cases k
  cases k'
  cases h
  rfl

/-- No statement of a recipient authorizes a write. -/
theorem not_authorizing_of_transferTo {domain username source target description message : String}
    {ts' : UInt64} (h : AuthorizingMessage crates domain ts message)
    (heq : message =
      SignedMessage.transferTo crates domain username source target description ts') : False := by
  cases h with
  | register description' hu =>
      have hroute := join_cons_inj heq
      exact absurd (join_head_inj (by decide) (by decide) hroute).1 (by decide)
  | @legacy name hu =>
      -- a legacy message is one line
      have hline : '\n' ∈ (SignedMessage.legacyTimestamped name ts).toList := by
        rw [heq]
        simp [SignedMessage.transferTo, SignedMessage.message, join, joinChars]
      simp only [SignedMessage.legacyTimestamped, String.toList_append, List.mem_append] at hline
      rcases hline with (hline | hline) | hline
      · exact hu.no_newline hline
      · exact absurd hline (by decide)
      · exact absurd (isDigit_decimal hline) (by decide)
  | unregister =>
      have hroute := join_cons_inj heq
      exact absurd (join_head_inj (by decide) (by decide) hroute).1 (by decide)
  | transferFrom =>
      have hroute := join_cons_inj heq
      exact absurd (join_head_inj (by decide) (by decide) hroute).1 (by decide)

/-- A recipient's message names the transfer. -/
theorem transferTo_inj {domain username username' target target' description description' : String}
    {source source' : PublicKey} (hu : Username username) (hu' : Username username')
    (h : SignedMessage.transferTo crates domain username source.hex target description ts =
      SignedMessage.transferTo crates domain username' source'.hex target' description' ts') :
    username = username' ∧ source = source' ∧ ts = ts' := by
  have htime : ts = ts' := by
    have hend : EndsInDecimal
        (SignedMessage.transferTo crates domain username source.hex target description ts)
        ts.toNat :=
      SignedMessage.endsInDecimal_message (List.cons_ne_nil _ _)
    have hend' : EndsInDecimal
        (SignedMessage.transferTo crates domain username' source'.hex target' description' ts')
        ts'.toNat :=
      SignedMessage.endsInDecimal_message (List.cons_ne_nil _ _)
    exact UInt64.toNat_inj.mp (hend.unique (h ▸ hend'))
  have hfields := join_cons_inj (join_cons_inj (join_cons_inj h))
  obtain ⟨husername, hrest⟩ := join_head_inj hu.no_newline hu'.no_newline hfields
  obtain ⟨hsource, _⟩ := join_head_inj source.no_newline source'.no_newline hrest
  exact ⟨husername, PublicKey.eq_of_hex hsource, htime⟩

/-- Requests that carry the same statement are authorized by the same one. -/
theorem same_authorization {carried : Statement} (hq : q.CarriesStatement crates carried)
    (hq' : q'.CarriesStatement crates carried) (hs : q.authorization crates = some (s, ts))
    (hs' : q'.authorization crates = some (s', ts')) : s = s' ∧ ts = ts' := by
  have own : ∀ {r : Request} {u : Statement} {tr : UInt64}, r.authorization crates = some (u, tr) →
      r.CarriesStatement crates carried → carried = u ∨ r.acceptance crates = some carried := by
    intro r u tr hr hcarries
    rcases hcarries with hfst | hacc
    · rw [hr] at hfst
      exact Or.inl (Option.some.inj hfst).symm
    · exact Or.inr hacc
  rcases own hs hq with rfl | hacc
  · rcases own hs' hq' with rfl | hacc'
    · refine ⟨rfl, UInt64.toNat_inj.mp ?_⟩
      exact (authorizingMessage hs).endsInDecimal.unique (authorizingMessage hs').endsInDecimal
    · obtain ⟨_, _, _, _, _, hmsg⟩ := transfer_statements hs' hacc'
      exact (not_authorizing_of_transferTo (authorizingMessage hs) hmsg).elim
  · obtain ⟨username, description, hu, hdom, hfrom, hto⟩ := transfer_statements hs hacc
    rcases own hs' hq' with rfl | hacc'
    · exact (not_authorizing_of_transferTo (authorizingMessage hs') hto).elim
    · obtain ⟨username', description', hu', hdom', hfrom', hto'⟩ := transfer_statements hs' hacc'
      obtain ⟨rfl, hsource, rfl⟩ := transferTo_inj hu hu' (hto.symm.trans hto')
      refine ⟨?_, rfl⟩
      cases s
      cases s'
      simp only at hdom hdom' hsource hfrom hfrom'
      rw [hdom, hdom', hsource, hfrom, hfrom', hsource]

end

end BlinkLnurl
