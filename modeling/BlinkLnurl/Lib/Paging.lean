import Mathlib.Data.List.Sort
import Mathlib.Data.List.Nodup
import Mathlib.Data.List.Perm.Subperm
import Mathlib.Order.WellFounded

/-!
# Paging by a cursor

A listing selects rows above a cursor and answers with its first `limit` rows in
an order of their keys. A client takes the key of the last row it received as
its next cursor, until a page is empty.

It receives no row twice. Whether it receives all rows is a matter of where its
pages end (`received_iff`): rows of one key that do not fit into a page are lost
at its end, and so is a row that is not selected although its key is above the
cursor.
-/

namespace Paging

universe u v

variable {α : Type u} {κ : Type v} [LinearOrder κ]

/-- What can be listed, at every cursor. -/
structure Source (α : Type u) (κ : Type v) [LinearOrder κ] where
  key : α → κ
  listing : κ → List α
  nodup : ∀ c, (listing c).Nodup
  above : ∀ {c x}, x ∈ listing c → c < key x
  anti : ∀ {c c' x}, c ≤ c' → x ∈ listing c' → x ∈ listing c

namespace Source

variable (S : Source α κ) (limit : Nat)

/-- The listing is ordered by the keys alone: rows of one key may come in any
order. -/
def Page (c : κ) (page : List α) : Prop :=
  ∃ rows : List α, rows.Perm (S.listing c) ∧ rows.Pairwise (fun a b => S.key a ≤ S.key b) ∧
    page = rows.take limit

/-- A client that starts at a cursor ends with what it received. -/
inductive Sync : κ → List α → Prop
  | done {c} : S.Page limit c [] → Sync c []
  | page {c page last rest} : S.Page limit c page → page.getLast? = some last →
      Sync (S.key last) rest → Sync c (page ++ rest)

/-- The keys that are listed at a cursor, in their order. -/
def keys (c : κ) : List κ := ((S.listing c).map S.key).insertionSort (· ≤ ·)

/-- The row is listed at some cursor. -/
def IsRow (x : α) : Prop := ∃ c, x ∈ S.listing c

/-- The rows above the first cursor are selected, and so are those above the key
of each `limit`-th row. The row that follows a `limit`-th row has another key. -/
structure Complete (start : κ) : Prop where
  first : ∀ x, S.IsRow x → start < S.key x → x ∈ S.listing start
  later : ∀ i c, (S.keys start)[i]? = some c → limit ∣ i + 1 →
    ∀ x, S.IsRow x → c < S.key x → x ∈ S.listing c
  apart : ∀ i c c', (S.keys start)[i]? = some c → (S.keys start)[i + 1]? = some c' →
    limit ∣ i + 1 → c < c'

variable {S limit} {c start : κ} {page received : List α} {last x : α}

/-! ## One page -/

/-- What is listed is the page and the rows that it leaves out. -/
theorem Page.split (h : S.Page limit c page) :
    ∃ rest, (page ++ rest).Perm (S.listing c) ∧
      (page ++ rest).Pairwise (fun a b => S.key a ≤ S.key b) ∧
      page.length ≤ limit ∧ (rest ≠ [] → page.length = limit) := by
  obtain ⟨rows, hperm, hsorted, rfl⟩ := h
  refine ⟨rows.drop limit, ?_, ?_, List.length_take_le _ _, fun hrest => ?_⟩
  · rw [List.take_append_drop]
    exact hperm
  · rw [List.take_append_drop]
    exact hsorted
  · have hpos := List.length_pos_iff.mpr hrest
    rw [List.length_drop] at hpos
    rw [List.length_take]
    omega

theorem keys_eq {rows : List α} (hperm : rows.Perm (S.listing c))
    (hsorted : rows.Pairwise fun a b => S.key a ≤ S.key b) : S.keys c = rows.map S.key := by
  refine List.Perm.eq_of_pairwise' (List.pairwise_insertionSort _ _)
    (List.pairwise_map.mpr hsorted) ?_
  exact (List.perm_insertionSort _ _).trans (hperm.symm.map S.key)

theorem mem_listing_of_page (h : S.Page limit c page) (hx : x ∈ page) : x ∈ S.listing c := by
  obtain ⟨rest, hperm, _⟩ := h.split
  exact hperm.mem_iff.mp (List.mem_append_left _ hx)

theorem nodup_page (h : S.Page limit c page) : page.Nodup := by
  obtain ⟨rest, hperm, _⟩ := h.split
  exact (List.nodup_append.mp (hperm.nodup_iff.mpr (S.nodup c))).1

/-- No row of the page comes after its last one. -/
theorem key_le_last (h : S.Page limit c page) (hlast : page.getLast? = some last) (hx : x ∈ page) :
    S.key x ≤ S.key last := by
  obtain ⟨rest, _, hsorted, _⟩ := h.split
  obtain ⟨front, hfront⟩ := List.getLast?_eq_some_iff.mp hlast
  have hpage := (List.pairwise_append.mp hsorted).1
  rw [hfront] at hpage hx
  rcases List.mem_append.mp hx with hx | hx
  · exact (List.pairwise_append.mp hpage).2.2 x hx last List.mem_cons_self
  · rw [List.mem_singleton.mp hx]

theorem listing_of_page_nil (hlimit : 0 < limit) (h : S.Page limit c []) : S.listing c = [] := by
  obtain ⟨rest, hperm, _, _, hfull⟩ := h.split
  by_cases hrest : rest = []
  · rw [hrest] at hperm
    exact List.nil_perm.mp hperm
  · have hzero : (0 : Nat) = limit := hfull hrest
    omega

/-- What is listed after a page was listed before it, and is not in it. -/
theorem listing_after (h : S.Page limit c page) (hlast : page.getLast? = some last)
    (hx : x ∈ S.listing (S.key last)) : x ∈ S.listing c ∧ x ∉ page := by
  have hmem := mem_listing_of_page h (List.mem_of_getLast? hlast)
  refine ⟨S.anti (S.above hmem).le hx, fun hpage => ?_⟩
  exact absurd (S.above hx) (not_lt_of_ge (key_le_last h hlast hpage))

/-- Less is left after each page. -/
theorem length_listing_after (h : S.Page limit c page) (hlast : page.getLast? = some last) :
    (S.listing (S.key last)).length < (S.listing c).length := by
  have hmem := mem_listing_of_page h (List.mem_of_getLast? hlast)
  have hnodup : (last :: S.listing (S.key last)).Nodup :=
    List.nodup_cons.mpr ⟨fun hin => absurd (S.above hin) (lt_irrefl _), S.nodup _⟩
  have hsub : last :: S.listing (S.key last) ⊆ S.listing c := by
    intro y hy
    rcases List.mem_cons.mp hy with rfl | hy
    · exact hmem
    · exact (listing_after h hlast hy).1
  exact (hnodup.subperm hsub).length_le

/-- Where the rows that a page leaves out have greater keys and are selected, they
are what is listed next. -/
theorem keys_after (h : S.Page limit c page) (hlast : page.getLast? = some last)
    (hnext : ∀ x ∈ S.listing c, x ∉ page → x ∈ S.listing (S.key last)) :
    S.keys c = page.map S.key ++ S.keys (S.key last) := by
  obtain ⟨rest, hperm, hsorted, _⟩ := h.split
  have hnodup := List.nodup_append.mp (hperm.nodup_iff.mpr (S.nodup c))
  have hrest : rest.Perm (S.listing (S.key last)) := by
    refine (List.perm_ext_iff_of_nodup hnodup.2.1 (S.nodup _)).mpr fun x =>
      ⟨fun hx => ?_, fun hx => ?_⟩
    · have hout : x ∉ page := fun hin => hnodup.2.2 x hin x hx rfl
      exact hnext x (hperm.mem_iff.mp (List.mem_append_right _ hx)) hout
    · obtain ⟨hlisted, hout⟩ := listing_after h hlast hx
      exact (List.mem_append.mp (hperm.mem_iff.mpr hlisted)).resolve_left hout
  rw [keys_eq hperm hsorted, List.map_append,
    keys_eq hrest (List.pairwise_append.mp hsorted).2.1]

/-- The key of the last row of a full page is the `limit`-th. -/
theorem keys_last (h : S.Page limit c page) (hlast : page.getLast? = some last) :
    (S.keys c)[page.length - 1]? = some (S.key last) := by
  obtain ⟨rest, hperm, hsorted, _⟩ := h.split
  have hpos := List.length_pos_of_mem (List.mem_of_getLast? hlast)
  rw [keys_eq hperm hsorted, List.getElem?_map, List.getElem?_append_left (by omega),
    ← List.getLast?_eq_getElem?, hlast]
  rfl

/-- Where the keys are apart at the end of a page, the rows that it leaves out have
greater keys. -/
theorem last_lt_of_apart (h : S.Page limit c page) (hlast : page.getLast? = some last)
    (hapart : ∀ i c₁ c₂, (S.keys c)[i]? = some c₁ → (S.keys c)[i + 1]? = some c₂ →
      limit ∣ i + 1 → c₁ < c₂)
    (hx : x ∈ S.listing c) (hout : x ∉ page) : page.length = limit ∧ S.key last < S.key x := by
  have hend := keys_last h hlast
  have hpos := List.length_pos_of_mem (List.mem_of_getLast? hlast)
  obtain ⟨rest, hperm, hsorted, _, hfull⟩ := h.split
  have hrest : x ∈ rest := (List.mem_append.mp (hperm.mem_iff.mpr hx)).resolve_left hout
  cases rest with
  | nil => exact absurd hrest List.not_mem_nil
  | cons next rest =>
      have hlength := hfull (List.cons_ne_nil _ _)
      have hafter : (S.keys c)[page.length - 1 + 1]? = some (S.key next) := by
        rw [keys_eq hperm hsorted, List.map_append, List.getElem?_append_right (by simp; omega)]
        simp [Nat.sub_add_cancel hpos]
      have hdvd : limit ∣ page.length - 1 + 1 := by
        exact ⟨1, by omega⟩
      refine ⟨hlength, (hapart _ _ _ hend hafter hdvd).trans_le ?_⟩
      rcases List.mem_cons.mp hrest with rfl | hrest
      · exact le_refl _
      · exact (List.pairwise_cons.mp (List.pairwise_append.mp hsorted).2.1).1 x hrest

/-! ## A client -/

/-- Every client comes to an empty page. -/
theorem sync_terminates (S : Source α κ) (limit : Nat) :
    WellFounded fun c' c =>
      ∃ page last, S.Page limit c page ∧ page.getLast? = some last ∧ c' = S.key last := by
  refine Subrelation.wf (r := InvImage (· < ·) fun c => (S.listing c).length) ?_
    (InvImage.wf _ wellFounded_lt)
  intro c' c ⟨page, last, hpage, hlast, hc'⟩
  subst hc'
  exact length_listing_after hpage hlast

theorem exists_sync (S : Source α κ) (limit : Nat) (start : κ) :
    ∃ received, S.Sync limit start received := by
  induction start using (sync_terminates S limit).induction with
  | _ c ih =>
      have hpage : S.Page limit c
          (((S.listing c).insertionSort fun a b => S.key a ≤ S.key b).take limit) := by
        have : IsTrans α fun a b => S.key a ≤ S.key b := ⟨fun _ _ _ => le_trans⟩
        have : Std.Total fun a b : α => S.key a ≤ S.key b := ⟨fun _ _ => le_total _ _⟩
        exact ⟨_, List.perm_insertionSort _ _, List.pairwise_insertionSort _ _, rfl⟩
      generalize ((S.listing c).insertionSort fun a b => S.key a ≤ S.key b).take limit = page
        at hpage
      cases hlast : page.getLast? with
      | none =>
          rw [List.getLast?_eq_none_iff] at hlast
          subst hlast
          exact ⟨[], .done hpage⟩
      | some last =>
          obtain ⟨rest, hrest⟩ := ih (S.key last) ⟨page, last, hpage, hlast, rfl⟩
          exact ⟨page ++ rest, .page hpage hlast hrest⟩

/-- A client receives what was listed at its first cursor, and nothing twice. -/
theorem Sync.nodup (h : S.Sync limit start received) :
    received.Nodup ∧ ∀ x ∈ received, x ∈ S.listing start := by
  induction h with
  | done => exact ⟨List.nodup_nil, fun x hx => absurd hx List.not_mem_nil⟩
  | page hpage hlast _ ih =>
      obtain ⟨hnodup, hlisted⟩ := ih
      constructor
      · refine List.nodup_append.mpr ⟨nodup_page hpage, hnodup, fun x hx y hy hxy => ?_⟩
        subst hxy
        exact (listing_after hpage hlast (hlisted x hy)).2 hx
      · intro x hx
        rcases List.mem_append.mp hx with hx | hx
        · exact mem_listing_of_page hpage hx
        · exact (listing_after hpage hlast (hlisted x hx)).1

/-! ## Where the pages end -/

/-- The keys from a cursor on are apart where those after its page are, shifted by
the page. -/
theorem keys_shift (h : S.Page limit c page) (hlast : page.getLast? = some last)
    (hnext : ∀ x ∈ S.listing c, x ∉ page → x ∈ S.listing (S.key last)) (i : Nat) :
    (S.keys (S.key last))[i]? = (S.keys c)[i + page.length]? := by
  rw [keys_after h hlast hnext, List.getElem?_append_right (by simp)]
  simp

/-- The `limit`-th rows are the last one of the page, and those that follow it. -/
theorem limit_index_cases (h : S.Page limit c page) {i : Nat} {k : κ} (hk : (S.keys c)[i]? = some k)
    (hdvd : limit ∣ i + 1) :
    i = page.length - 1 ∨ ∃ j, i = j + page.length ∧ limit ∣ j + 1 := by
  obtain ⟨rest, hperm, hsorted, hle, hfull⟩ := h.split
  have hlimit := Nat.le_of_dvd (Nat.succ_pos i) hdvd
  by_cases hi : i + 1 ≤ page.length
  · exact Or.inl (by omega)
  · have hrest : rest ≠ [] := by
      intro hrest
      rw [keys_eq hperm hsorted, hrest, List.append_nil] at hk
      have hlt := (List.getElem?_eq_some_iff.mp hk).1
      rw [List.length_map] at hlt
      omega
    have hlength := hfull hrest
    refine Or.inr ⟨i - page.length, by omega, ?_⟩
    have heq : i - page.length + 1 = i + 1 - limit := by omega
    rw [heq]
    exact Nat.dvd_sub hdvd (Nat.dvd_refl limit)

theorem Complete.next (h : S.Complete limit c) (hpage : S.Page limit c page)
    (hlast : page.getLast? = some last) : S.Complete limit (S.key last) := by
  have habove := S.above (mem_listing_of_page hpage (List.mem_of_getLast? hlast))
  have hpos := List.length_pos_of_mem (List.mem_of_getLast? hlast)
  have hend := keys_last hpage hlast
  -- a row above the end of the page was listed and left out, so the page is full
  have hfirst : ∀ x, S.IsRow x → S.key last < S.key x → x ∈ S.listing (S.key last) := by
    intro x hrow hx
    have hlisted := h.first x hrow (habove.trans hx)
    have hout : x ∉ page := fun hin => absurd hx (not_lt_of_ge (key_le_last hpage hlast hin))
    have hfull := (last_lt_of_apart hpage hlast h.apart hlisted hout).1
    refine h.later _ _ hend ?_ x hrow hx
    exact ⟨1, by omega⟩
  have hnext : ∀ x ∈ S.listing c, x ∉ page → x ∈ S.listing (S.key last) := fun x hx hout =>
    hfirst x ⟨c, hx⟩ (last_lt_of_apart hpage hlast h.apart hx hout).2
  by_cases hempty : S.listing (S.key last) = []
  · have hkeys : S.keys (S.key last) = [] := by
      unfold keys
      rw [hempty]
      rfl
    refine ⟨hfirst, fun i k hk => ?_, fun i k k' hk => ?_⟩
    · rw [hkeys] at hk
      exact nomatch hk
    · rw [hkeys] at hk
      exact nomatch hk
  · obtain ⟨y, hy⟩ := List.exists_mem_of_ne_nil _ hempty
    obtain ⟨hlisted, hout⟩ := listing_after hpage hlast hy
    have hfull := (last_lt_of_apart hpage hlast h.apart hlisted hout).1
    have hdvd : ∀ {i}, limit ∣ i + 1 → limit ∣ i + page.length + 1 := by
      intro i hi
      rw [hfull, Nat.add_right_comm]
      exact Nat.dvd_add_self_right.mpr hi
    refine ⟨hfirst, fun i k hk hi => ?_, fun i k k' hk hk' hi => ?_⟩
    · rw [keys_shift hpage hlast hnext] at hk
      exact h.later _ _ hk (hdvd hi)
    · rw [keys_shift hpage hlast hnext] at hk hk'
      rw [Nat.add_right_comm] at hk'
      exact h.apart _ _ _ hk hk' (hdvd hi)

theorem received_of_complete (hlimit : 0 < limit) (h : S.Sync limit start received)
    (hcomplete : S.Complete limit start) (hrow : S.IsRow x) (hx : start < S.key x) :
    x ∈ received := by
  induction h with
  | done hpage =>
      have hlisted := hcomplete.first x hrow hx
      rw [listing_of_page_nil hlimit hpage] at hlisted
      exact hlisted
  | @page c page last rest hpage hlast _ ih =>
      have hlisted := hcomplete.first x hrow hx
      by_cases hin : x ∈ page
      · exact List.mem_append_left _ hin
      · have hlt := (last_lt_of_apart hpage hlast hcomplete.apart hlisted hin).2
        exact List.mem_append_right _ (ih (hcomplete.next hpage hlast) hlt)

/-- A client that received all rows was given complete pages: what it received
after a page is what the page left out. -/
theorem complete_of_received (hlimit : 0 < limit) (h : S.Sync limit start received)
    (hall : ∀ x, S.IsRow x → start < S.key x → x ∈ received) : S.Complete limit start := by
  induction h with
  | @done c hpage =>
      have hlisting := listing_of_page_nil hlimit hpage
      have hkeys : S.keys c = [] := by
        unfold keys
        rw [hlisting]
        rfl
      refine ⟨fun x hrow hx => absurd (hall x hrow hx) List.not_mem_nil, fun i k hk => ?_,
        fun i k k' hk => ?_⟩
      · rw [hkeys] at hk
        exact nomatch hk
      · rw [hkeys] at hk
        exact nomatch hk
  | @page c page last rest hpage hlast hsync ih =>
      have hlastAbove := S.above (mem_listing_of_page hpage (List.mem_of_getLast? hlast))
      have hpos := List.length_pos_of_mem (List.mem_of_getLast? hlast)
      have hend := keys_last hpage hlast
      have hcomplete : S.Complete limit (S.key last) := by
        refine ih fun x hrow hx => ?_
        rcases List.mem_append.mp (hall x hrow (hlastAbove.trans hx)) with hin | hin
        · exact absurd hx (not_lt_of_ge (key_le_last hpage hlast hin))
        · exact hin
      have hnext : ∀ x ∈ S.listing c, x ∉ page → x ∈ S.listing (S.key last) := by
        intro x hx hout
        rcases List.mem_append.mp (hall x ⟨c, hx⟩ (S.above hx)) with hin | hin
        · exact absurd hin hout
        · exact hsync.nodup.2 x hin
      -- the keys of the page come first, those of the rest follow
      have hkeys := keys_after hpage hlast hnext
      refine ⟨fun x hrow hx => ?_, fun i k hk hdvd => ?_, fun i k k' hk hk' hdvd => ?_⟩
      · rcases List.mem_append.mp (hall x hrow hx) with hin | hin
        · exact mem_listing_of_page hpage hin
        · exact (listing_after hpage hlast (hsync.nodup.2 x hin)).1
      · rcases limit_index_cases hpage hk hdvd with hi | ⟨j, hi, hdvdj⟩
        · rw [hi, hend] at hk
          rw [← Option.some.inj hk]
          exact hcomplete.first
        · rw [hi, ← keys_shift hpage hlast hnext] at hk
          exact hcomplete.later j k hk hdvdj
      · rcases limit_index_cases hpage hk hdvd with hi | ⟨j, hi, hdvdj⟩
        · rw [hi, hend] at hk
          rw [hi, Nat.sub_add_cancel hpos, hkeys, List.getElem?_append_right (by simp)] at hk'
          have hmem := List.mem_of_getElem? hk'
          obtain ⟨y, hy, hkey⟩ := List.mem_map.mp ((List.perm_insertionSort _ _).mem_iff.mp hmem)
          rw [← Option.some.inj hk, ← hkey]
          exact S.above hy
        · rw [hi, ← keys_shift hpage hlast hnext] at hk
          rw [hi, Nat.add_right_comm, ← keys_shift hpage hlast hnext] at hk'
          exact hcomplete.apart j k k' hk hk' hdvdj

/-- A client receives every row above its first cursor exactly if its pages are
complete. -/
theorem received_iff (hlimit : 0 < limit) (h : S.Sync limit start received) :
    (∀ x, S.IsRow x → start < S.key x → x ∈ received) ↔ S.Complete limit start :=
  ⟨complete_of_received hlimit h, fun hcomplete _ => received_of_complete hlimit h hcomplete⟩

end Source

end Paging
