import Mathlib.Data.List.Basic
import Mathlib.Data.List.Infix

/-!
# Messages made of fields

Signed messages are fields joined by a separator, with a decimal number last.
Two things are read back from such a text: field by field from the front, as
long as they do not hold the separator (`join_head_inj`), and the number, when
a non-digit stands before it (`EndsInDecimal.unique`).
-/

namespace Text

/-- `[f₁, …, fₙ].join(sep)`. -/
def joinChars (sep : Char) : List (List Char) → List Char
  | [] => []
  | [f] => f
  | f :: g :: fs => f ++ sep :: joinChars sep (g :: fs)

/-- `[f₁, …, fₙ].join(sep)`. -/
def join (sep : Char) (fields : List String) : String :=
  String.ofList (joinChars sep (fields.map String.toList))

/-- Decimal digits of a number. -/
def decimal (n : Nat) : String := toString n

theorem toList_decimal (n : Nat) : (decimal n).toList = Nat.toDigits 10 n := by
  simp [decimal]

theorem isDigit_decimal {n : Nat} {c : Char} (h : c ∈ (decimal n).toList) : c.isDigit = true := by
  rw [toList_decimal] at h
  exact Nat.isDigit_of_mem_toDigits (by decide) (by decide) h

theorem decimal_inj {m n : Nat} (h : decimal m = decimal n) : m = n := by
  have hdigits : Nat.toDigits 10 m = Nat.toDigits 10 n := by
    rw [← toList_decimal, ← toList_decimal, h]
  have hread := congrArg (fun l => Nat.ofDigitChars 10 l 0) hdigits
  simpa only [Nat.ofDigitChars_ten_toDigits] using hread

/-! ## Splitting -/

/-- Where the first separator of two texts stands, they agree up to it and
from it on. -/
theorem append_cons_inj {sep : Char} {f g fs gs : List Char} (hf : sep ∉ f) (hg : sep ∉ g)
    (h : f ++ sep :: fs = g ++ sep :: gs) : f = g ∧ fs = gs := by
  induction f generalizing g with
  | nil =>
      cases g with
      | nil => exact ⟨rfl, (List.cons.inj h).2⟩
      | cons b g =>
          have hb : sep = b := (List.cons.inj h).1
          exact absurd (hb ▸ List.mem_cons_self) hg
  | cons a f ih =>
      cases g with
      | nil =>
          have ha : a = sep := (List.cons.inj h).1
          exact absurd (ha ▸ List.mem_cons_self) hf
      | cons b g =>
          obtain ⟨hab, hrest⟩ := List.cons.inj h
          obtain ⟨hfg, hgs⟩ := ih (fun hm => hf (List.mem_cons_of_mem _ hm))
            (fun hm => hg (List.mem_cons_of_mem _ hm)) hrest
          exact ⟨by rw [hab, hfg], hgs⟩

/-- Texts with the same first field have the same rest. -/
theorem join_cons_inj {sep : Char} {f g g' : String} {fs gs : List String}
    (h : join sep (f :: g :: fs) = join sep (f :: g' :: gs)) :
    join sep (g :: fs) = join sep (g' :: gs) := by
  have hl := congrArg String.toList h
  simp only [join, String.toList_ofList, List.map_cons, joinChars] at hl
  have hrest := (List.cons.inj (List.append_cancel_left hl)).2
  simp only [join, List.map_cons]
  rw [hrest]

/-- A first field without the separator is read back from a text. -/
theorem join_head_inj {sep : Char} {f f' g g' : String} {fs gs : List String}
    (hf : sep ∉ f.toList) (hf' : sep ∉ f'.toList)
    (h : join sep (f :: g :: fs) = join sep (f' :: g' :: gs)) :
    f = f' ∧ join sep (g :: fs) = join sep (g' :: gs) := by
  have hl := congrArg String.toList h
  simp only [join, String.toList_ofList, List.map_cons, joinChars] at hl
  obtain ⟨hhead, hrest⟩ := append_cons_inj hf hf' hl
  refine ⟨String.toList_inj.mp hhead, ?_⟩
  simp only [join, List.map_cons]
  rw [hrest]

theorem joinChars_inj {sep : Char} {fs gs : List (List Char)} (hne : fs ≠ []) (hne' : gs ≠ [])
    (hf : ∀ f ∈ fs, sep ∉ f) (hg : ∀ g ∈ gs, sep ∉ g) (h : joinChars sep fs = joinChars sep gs) :
    fs = gs := by
  induction fs generalizing gs with
  | nil => exact absurd rfl hne
  | cons f fs ih =>
      cases gs with
      | nil => exact absurd rfl hne'
      | cons g gs =>
          have hfirst := hf f List.mem_cons_self
          have hfirst' := hg g List.mem_cons_self
          cases fs with
          | nil =>
              cases gs with
              | nil => exact congrArg (fun x => [x]) h
              | cons g' gs =>
                  have h : f = g ++ sep :: joinChars sep (g' :: gs) := h
                  refine absurd ?_ hfirst
                  rw [h]
                  exact List.mem_append_right _ List.mem_cons_self
          | cons f' fs =>
              cases gs with
              | nil =>
                  have h : f ++ sep :: joinChars sep (f' :: fs) = g := h
                  refine absurd ?_ hfirst'
                  rw [← h]
                  exact List.mem_append_right _ List.mem_cons_self
              | cons g' gs =>
                  obtain ⟨hhead, hrest⟩ := append_cons_inj hfirst hfirst' h
                  rw [hhead, ih (List.cons_ne_nil _ _) (List.cons_ne_nil _ _)
                    (fun x hx => hf x (List.mem_cons_of_mem _ hx))
                    (fun x hx => hg x (List.mem_cons_of_mem _ hx)) hrest]

/-- Fields without the separator are read back from a text. -/
theorem join_inj {sep : Char} {fs gs : List String} (hne : fs ≠ []) (hne' : gs ≠ [])
    (hf : ∀ f ∈ fs, sep ∉ f.toList) (hg : ∀ g ∈ gs, sep ∉ g.toList)
    (h : join sep fs = join sep gs) : fs = gs := by
  have hl := congrArg String.toList h
  rw [join, join, String.toList_ofList, String.toList_ofList] at hl
  have hlists := joinChars_inj (by simpa using hne) (by simpa using hne')
    (fun l hl => by
      obtain ⟨f, hmem, rfl⟩ := List.mem_map.mp hl
      exact hf f hmem)
    (fun l hl => by
      obtain ⟨g, hmem, rfl⟩ := List.mem_map.mp hl
      exact hg g hmem) hl
  exact List.map_injective_iff.mpr (fun _ _ => String.toList_inj.mp) hlists

/-- A text of several fields holds the separator. -/
theorem sep_mem_join {sep : Char} (f g : String) (fs : List String) :
    sep ∈ (join sep (f :: g :: fs)).toList := by
  rw [join, String.toList_ofList]
  exact List.mem_append_right _ List.mem_cons_self

/-! ## The number at the end -/

/-- The text ends in the decimal number `n`, with a non-digit before it. -/
def EndsInDecimal (s : String) (n : Nat) : Prop :=
  ∃ (pre : List Char) (c : Char), c.isDigit = false ∧ s.toList = pre ++ c :: (decimal n).toList

theorem takeWhile_digits (pre : List Char) {digits : List Char} {c : Char} (hc : c.isDigit = false)
    (hd : ∀ d ∈ digits, d.isDigit = true) :
    (pre ++ c :: digits).reverse.takeWhile Char.isDigit = digits.reverse := by
  have hrev : (pre ++ c :: digits).reverse = digits.reverse ++ c :: pre.reverse := by simp
  rw [hrev, List.takeWhile_append_of_pos (fun d hm => hd d (List.mem_reverse.mp hm)),
    List.takeWhile_cons_of_neg (by simp [hc]), List.append_nil]

/-- A text ends in one number only. -/
theorem EndsInDecimal.unique {s : String} {m n : Nat} (hm : EndsInDecimal s m)
    (hn : EndsInDecimal s n) : m = n := by
  obtain ⟨pre, c, hc, hs⟩ := hm
  obtain ⟨pre', c', hc', hs'⟩ := hn
  have hrev : (decimal m).toList.reverse = (decimal n).toList.reverse := by
    rw [← takeWhile_digits pre hc fun _ => isDigit_decimal,
      ← takeWhile_digits pre' hc' fun _ => isDigit_decimal, ← hs, ← hs']
  exact decimal_inj (String.toList_inj.mp (List.reverse_injective hrev))

theorem joinChars_append_singleton {sep : Char} {fs : List (List Char)} {l : List Char}
    (hne : fs ≠ []) : joinChars sep (fs ++ [l]) = joinChars sep fs ++ sep :: l := by
  induction fs with
  | nil => exact absurd rfl hne
  | cons f fs ih =>
      cases fs with
      | nil => rfl
      | cons g fs =>
          have hrec := ih (List.cons_ne_nil _ _)
          simp only [List.cons_append, joinChars] at hrec ⊢
          rw [hrec, List.append_assoc, List.cons_append]

/-- A message whose last field is a number ends in it. -/
theorem endsInDecimal_join {sep : Char} (hsep : sep.isDigit = false) {fs : List String} {n : Nat}
    (hne : fs ≠ []) : EndsInDecimal (join sep (fs ++ [decimal n])) n := by
  refine ⟨joinChars sep (fs.map String.toList), sep, hsep, ?_⟩
  rw [join, String.toList_ofList, List.map_append, List.map_cons, List.map_nil,
    joinChars_append_singleton (by simpa using hne)]

end Text
