import Introspect.Text.Blank
import Introspect.Text.Numeral
import Mathlib.Data.List.Induction
import Mathlib.Data.Nat.Digits.Defs

/-!
Decimal numerals: what is written is read again, and what is read is the value of the digits.

* `natOfChars?_eq_some_iff`: the texts that are read as a natural number.
* `natOfChars?_decimalChars`, `intOfChars?_signedDecimal`: written numbers.
* `natOfChars?_eq_some_iff_zeros`: a number is read from its written form behind zeros, and from nothing else.
* `trimChars_signedDecimal`: they have no blanks that trimming would take away.
-/

namespace Introspect.Text

/-! ## Digits -/

theorem isDigit_digitChar : ∀ d < 10, (digitChar d).isDigit = true := by decide

theorem digitOf_digitChar : ∀ d < 10, digitOf (digitChar d) = d := by decide

theorem isDigit_of_mem_decimalChars {n : Nat} {c : Char} (h : c ∈ decimalChars n) :
    c.isDigit = true := by
  induction n using decimalChars.induct with
  | case1 n hn =>
    rw [decimalChars, if_pos hn] at h
    rw [List.mem_singleton.1 h]
    exact isDigit_digitChar n hn
  | case2 n hn ih =>
    rw [decimalChars, if_neg hn] at h
    rcases List.mem_append.1 h with h | h
    · exact ih h
    · rw [List.mem_singleton.1 h]
      exact isDigit_digitChar _ (Nat.mod_lt n (by omega))

theorem decimalChars_ne_nil (n : Nat) : decimalChars n ≠ [] := by
  rw [decimalChars]
  split <;> simp

theorem isNumeral_decimalChars (n : Nat) : isNumeral (decimalChars n) = true := by
  unfold isNumeral
  have hall : (decimalChars n).all Char.isDigit = true :=
    List.all_eq_true.2 fun c hc => isDigit_of_mem_decimalChars hc
  simp [hall, decimalChars_ne_nil]

/-! ## Values -/

theorem digitsValueFrom_singleton (acc : Nat) (c : Char) :
    digitsValueFrom acc [c] = 10 * acc + digitOf c := rfl

theorem digitsValueFrom_append (acc : Nat) (s t : List Char) :
    digitsValueFrom acc (s ++ t) = digitsValueFrom (digitsValueFrom acc s) t := by
  induction s generalizing acc with
  | nil => rfl
  | cons c s ih => exact ih (10 * acc + digitOf c)

/-- A run of digits is read as what it is worth in base ten. -/
theorem digitsValue_eq_ofDigits (s : List Char) :
    digitsValue s = Nat.ofDigits 10 (s.reverse.map digitOf) := by
  induction s using List.reverseRecOn with
  | nil => rfl
  | append_singleton s c ih =>
    unfold digitsValue at ih ⊢
    rw [digitsValueFrom_append, List.reverse_append, List.reverse_singleton, List.singleton_append,
      List.map_cons, Nat.ofDigits_cons, ← ih, digitsValueFrom_singleton]
    exact Nat.add_comm ..

theorem natOfChars?_eq_some_iff {s : List Char} {n : Nat} :
    natOfChars? s = some n ↔
      s ≠ [] ∧ (∀ c ∈ s, c.isDigit = true) ∧ Nat.ofDigits 10 (s.reverse.map digitOf) = n := by
  have hnumeral : isNumeral s = true ↔ s ≠ [] ∧ ∀ c ∈ s, c.isDigit = true := by
    simp [isNumeral]
  unfold natOfChars?
  rw [digitsValue_eq_ofDigits, ← and_assoc, ← hnumeral]
  split
  · next h => simp only [h, true_and, Option.some.injEq]
  · next h => simp only [h, false_and, reduceCtorEq]

/-! ## Written numbers -/

theorem digitsValue_decimalChars (n : Nat) : digitsValue (decimalChars n) = n := by
  induction n using decimalChars.induct with
  | case1 n hn =>
    rw [decimalChars, if_pos hn, digitsValue, digitsValueFrom_singleton, digitOf_digitChar n hn]
    omega
  | case2 n hn ih =>
    have hdigit := digitOf_digitChar (n % 10) (Nat.mod_lt n (by omega))
    unfold digitsValue at ih ⊢
    rw [decimalChars, if_neg hn, digitsValueFrom_append, ih, digitsValueFrom_singleton, hdigit]
    omega

theorem natOfChars?_decimalChars (n : Nat) : natOfChars? (decimalChars n) = some n := by
  simp [natOfChars?, isNumeral_decimalChars, digitsValue_decimalChars]

theorem signedDecimal_toList (n : Int) :
    (signedDecimal n).toList =
      if n < 0 then '-' :: decimalChars n.natAbs else decimalChars n.natAbs := by
  unfold signedDecimal decimal
  split
  · simp
  · rw [String.toList_ofList]

theorem intOfChars?_signedDecimal (n : Int) : intOfChars? (signedDecimal n).toList = some n := by
  rw [signedDecimal_toList]
  split
  · next h =>
    simp only [intOfChars?, natOfChars?_decimalChars, Option.bind_eq_bind, Option.bind_some,
      Option.pure_def, Option.map_some, Option.some.injEq]
    omega
  · next h =>
    have hhead : ∀ s, decimalChars n.natAbs ≠ '-' :: s ∧ decimalChars n.natAbs ≠ '+' :: s := by
      intro s
      constructor
      · intro heq
        exact absurd (isDigit_of_mem_decimalChars (heq ▸ List.mem_cons_self ..)) (by decide)
      · intro heq
        exact absurd (isDigit_of_mem_decimalChars (heq ▸ List.mem_cons_self ..)) (by decide)
    unfold intOfChars?
    split
    · next s heq => exact absurd heq (hhead s).1
    · next s heq => exact absurd heq (hhead s).2
    · simp only [natOfChars?_decimalChars, Option.bind_eq_bind, Option.bind_some, Option.pure_def,
        Option.map_some, Option.some.injEq]
      omega

theorem intInRange?_signedDecimal {low high n : Int} (h : low ≤ n ∧ n ≤ high) :
    intInRange? low high (signedDecimal n).toList = some n := by
  simp only [intInRange?, intOfChars?_signedDecimal, if_pos h]

/-! ## Leading zeros -/

theorem decimalChars_of_lt {d : Nat} (hd : d < 10) : decimalChars d = [digitChar d] := by
  rw [decimalChars, if_pos hd]

theorem decimalChars_append_digit {n d : Nat} (hn : n ≠ 0) (hd : d < 10) :
    decimalChars n ++ [digitChar d] = decimalChars (10 * n + d) := by
  rw [decimalChars.eq_def (10 * n + d), if_neg (by omega), show (10 * n + d) / 10 = n by omega,
    show (10 * n + d) % 10 = d by omega]

/-- A written number has no zero in front, zero itself apart. -/
theorem eq_zero_of_head? {n : Nat} (h : (decimalChars n).head? = some '0') : n = 0 := by
  induction n using decimalChars.induct with
  | case1 n hn =>
    rw [decimalChars_of_lt hn] at h
    have hzero : digitOf (digitChar n) = digitOf '0' := congrArg digitOf (Option.some.inj h)
    rw [digitOf_digitChar n hn] at hzero
    exact hzero
  | case2 n hn ih =>
    rw [decimalChars, if_neg hn, List.head?_append, Option.or_of_isSome
      (by simpa using decimalChars_ne_nil (n / 10))] at h
    have := ih h
    omega

theorem digitChar_digitOf {c : Char} (h : c.isDigit = true) : digitChar (digitOf c) = c := by
  have hlow : 48 ≤ c.toNat := by simpa using (Char.isDigit_iff_toNat.1 h).1
  unfold digitChar digitOf
  rw [show 48 + (c.toNat - 48) = c.toNat by omega, Char.ofNat_toNat]

theorem digitOf_lt {c : Char} (h : c.isDigit = true) : digitOf c < 10 := by
  have hhigh : c.toNat ≤ 57 := by simpa using (Char.isDigit_iff_toNat.1 h).2
  unfold digitOf
  omega

theorem digitsValue_zeros_append (zeros : Nat) (s : List Char) :
    digitsValue (List.replicate zeros '0' ++ s) = digitsValue s := by
  induction zeros with
  | zero => rfl
  | succ k ih => exact ih

/-- A run of digits is the written form of its value, behind zeros. -/
theorem eq_zeros_append_decimalChars {s : List Char} (hne : s ≠ []) (hs : ∀ c ∈ s, c.isDigit = true) :
    ∃ zeros, s = List.replicate zeros '0' ++ decimalChars (digitsValue s) := by
  induction s using List.reverseRecOn with
  | nil => exact absurd rfl hne
  | append_singleton s c ih =>
    have hc : c.isDigit = true := hs c (by simp)
    have hd := digitOf_lt hc
    have hvalue : digitsValue (s ++ [c]) = 10 * digitsValue s + digitOf c := by
      unfold digitsValue
      rw [digitsValueFrom_append, digitsValueFrom_singleton]
    rw [hvalue]
    by_cases hnil : s = []
    · subst hnil
      exact ⟨0, by rw [show 10 * digitsValue [] + digitOf c = digitOf c from Nat.zero_add _,
        decimalChars_of_lt hd, digitChar_digitOf hc]; rfl⟩
    obtain ⟨zeros, hzeros⟩ := ih hnil fun d hd => hs d (List.mem_append_left _ hd)
    by_cases hzero : digitsValue s = 0
    · -- the digits before the last one are zeros
      refine ⟨zeros + 1, ?_⟩
      rw [hzero, decimalChars_of_lt (by decide)] at hzeros
      rw [hzero, Nat.mul_zero, Nat.zero_add, decimalChars_of_lt hd, digitChar_digitOf hc, hzeros,
        List.replicate_succ']
      rfl
    · refine ⟨zeros, ?_⟩
      rw [← decimalChars_append_digit hzero hd, digitChar_digitOf hc, ← List.append_assoc, ← hzeros]

/-- A number is read from its written form, behind any number of zeros, and from no other text. -/
theorem natOfChars?_eq_some_iff_zeros {s : List Char} {n : Nat} :
    natOfChars? s = some n ↔ ∃ zeros, s = List.replicate zeros '0' ++ decimalChars n := by
  rw [natOfChars?_eq_some_iff, ← digitsValue_eq_ofDigits]
  constructor
  · rintro ⟨hne, hdigits, rfl⟩
    exact eq_zeros_append_decimalChars hne hdigits
  · rintro ⟨zeros, rfl⟩
    refine ⟨by simp [decimalChars_ne_nil], fun c hc => ?_, ?_⟩
    · rcases List.mem_append.1 hc with hc | hc
      · rw [List.eq_of_mem_replicate hc]
        rfl
      · exact isDigit_of_mem_decimalChars hc
    · rw [digitsValue_zeros_append, digitsValue_decimalChars]

/-! ## Blanks -/

theorem isBlank_of_isDigit {c : Char} (h : c.isDigit = true) : isBlank c = false := by
  have hlow : 48 ≤ c.toNat := by simpa using (Char.isDigit_iff_toNat.1 h).1
  have hhigh : c.toNat ≤ 57 := by simpa using (Char.isDigit_iff_toNat.1 h).2
  simp [isBlank, inRanges, blankRanges]
  omega

theorem trimChars_of_not_blank {s : List Char} (h : ∀ c ∈ s, isBlank c = false) :
    trimChars s = s := by
  have keep : ∀ {t : List Char}, (∀ c ∈ t, isBlank c = false) → t.dropWhile isBlank = t := by
    intro t ht
    cases t with
    | nil => rfl
    | cons c t => simp [List.dropWhile, ht c (List.mem_cons_self ..)]
  unfold trimChars
  rw [keep h, keep fun c hc => h c (List.mem_reverse.1 hc), List.reverse_reverse]

theorem trimChars_signedDecimal (n : Int) :
    trimChars (signedDecimal n).toList = (signedDecimal n).toList := by
  refine trimChars_of_not_blank fun c hc => ?_
  have hdigits : c ∈ decimalChars n.natAbs → isBlank c = false := fun h =>
    isBlank_of_isDigit (isDigit_of_mem_decimalChars h)
  rw [signedDecimal_toList] at hc
  split at hc
  · rcases List.mem_cons.1 hc with rfl | hc
    · decide
    · exact hdigits hc
  · exact hdigits hc

end Introspect.Text
