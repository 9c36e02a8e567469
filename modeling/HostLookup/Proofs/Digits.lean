import Mathlib.Algebra.Group.Nat.Defs
import Mathlib.Data.List.Induction
import HostLookup.Bytes.Numeral

/-!
# Digits and the numbers they spell

`HasValue base m s n` says that the digits `s` continue the value `m` to `n`.
What is written for a number has its value, and any digits of that value are the
written ones with zeros in front, in either case of letters (`hasValue_iff`). So
the readers take exactly these texts, below their limit (`natBelow?_eq_some_iff`).
The inductions are on the last digit, as numbers are written.
-/

namespace HostLookup.Bytes

/-- The digits `s` after the value `m` give the value `n`. -/
inductive HasValue (base : Nat) : Nat → Bytes → Nat → Prop where
  | done {n : Nat} : HasValue base n [] n
  | digit {m n d : Nat} {b : UInt8} {s : Bytes} (digit : digit? base b = some d)
      (rest : HasValue base (base * m + d) s n) : HasValue base m (b :: s) n

section

variable {base limit k m n d : Nat} {b : UInt8} {s : Bytes}

/-! ## One digit -/

theorem toNat_lowerCase (b : UInt8) :
    (lowerCase b).toNat = if 65 ≤ b.toNat ∧ b.toNat ≤ 90 then b.toNat + 32 else b.toNat := by
  simp only [lowerCase, Bool.and_eq_true, decide_eq_true_eq, UInt8.le_iff_toNat_le,
    UInt8.reduceToNat]
  split
  · rw [UInt8.toNat_add, show (32 : UInt8).toNat = 32 from rfl]
    omega
  · rfl

theorem digitValue?_eq (b : UInt8) :
    digitValue? b = if 48 ≤ b.toNat ∧ b.toNat ≤ 57 then some (b.toNat - 48)
      else if 97 ≤ b.toNat ∧ b.toNat ≤ 102 then some (b.toNat - 87)
      else if 65 ≤ b.toNat ∧ b.toNat ≤ 70 then some (b.toNat - 55)
      else none := by
  simp only [digitValue?, Bool.and_eq_true, decide_eq_true_eq, UInt8.le_iff_toNat_le,
    UInt8.reduceToNat]

theorem digit?_lowerCase (b : UInt8) : digit? base (lowerCase b) = digit? base b := by
  have h : digitValue? (lowerCase b) = digitValue? b := by
    rw [digitValue?_eq, digitValue?_eq, toNat_lowerCase]
    grind
  rw [digit?, digit?, h]

theorem digitValue?_digit : ∀ d < 16, digitValue? (digit d) = some d := by decide

theorem digit?_digit (hd : d < base) (hbase : base ≤ 16) : digit? base (digit d) = some d := by
  rw [digit?, digitValue?_digit d (by omega), Option.filter_some, if_pos (by simpa using hd)]

theorem toNat_digit : ∀ d < 16, (digit d).toNat = if d < 10 then 48 + d else 87 + d := by decide

theorem lowerCase_of_digit? (h : digit? base b = some d) : d < base ∧ lowerCase b = digit d := by
  obtain ⟨hd, hlt⟩ := Option.filter_eq_some_iff.mp h
  refine ⟨by simpa using hlt, UInt8.toNat_inj.mp ?_⟩
  rw [digitValue?_eq] at hd
  rw [toNat_lowerCase, toNat_digit d (by grind)]
  grind

/-! ## What is written -/

theorem digits_ne_nil (base n : Nat) : digits base n ≠ [] :=
  List.map_eq_nil_iff.not.mpr Nat.toDigits_ne_nil

theorem digits_of_lt (h : n < base) : digits base n = [digit n] := by
  rw [digits, Nat.toDigits_of_lt_base h]
  rfl

theorem digits_mul_add (hbase : 1 < base) (hm : m ≠ 0) (hd : d < base) :
    digits base (base * m + d) = digits base m ++ [digit d] := by
  rw [← digits_of_lt hd, digits, digits, digits, ← List.map_append,
    Nat.toDigits_append_toDigits hbase (Nat.pos_of_ne_zero hm) hd]

/-- A number is written with the digits of its quotient and the one of its remainder. -/
theorem digits_induction {P : Nat → Bytes → Prop} (hbase : 1 < base)
    (last : ∀ n < base, P n [digit n])
    (more : ∀ m d, m ≠ 0 → d < base → P m (digits base m) →
      P (base * m + d) (digits base m ++ [digit d])) (n : Nat) : P n (digits base n) := by
  induction n using Nat.strongRecOn with
  | ind n ih =>
    by_cases h : n < base
    · rw [digits_of_lt h]
      exact last n h
    · have hpos : n / base ≠ 0 := Nat.ne_of_gt (Nat.div_pos (by omega) (by omega))
      have hmod := Nat.mod_lt n (show 0 < base by omega)
      have hrest := more _ _ hpos hmod (ih _ (Nat.div_lt_self (by omega) hbase))
      rwa [← digits_mul_add hbase hpos hmod, Nat.div_add_mod] at hrest

theorem length_digits_le (hbase : 1 < base) (hk : 0 < k) (h : n < base ^ k) :
    (digits base n).length ≤ k := by
  rw [digits, List.length_map]
  exact (Nat.length_toDigits_le_iff hbase hk).mpr h

theorem digit_ne_zero : ∀ n < 16, n ≠ 0 → digit n ≠ 48 := by decide

theorem head?_digits_ne (hbase : 1 < base) (hsmall : base ≤ 16) (h : n ≠ 0) :
    (digits base n).head? ≠ some 48 := by
  induction n using digits_induction hbase with
  | last n hn => simpa using digit_ne_zero n (by omega) h
  | more m d hm _ ih =>
    obtain ⟨b, s, hs⟩ := List.exists_cons_of_ne_nil (digits_ne_nil base m)
    rw [hs] at ih ⊢
    exact ih hm

/-! ## Values -/

theorem HasValue.concat (h : HasValue base m s n) (hd : digit? base b = some d) :
    HasValue base m (s ++ [b]) (base * n + d) := by
  induction h with
  | done => exact .digit hd .done
  | digit digit _ ih => exact .digit digit (ih)

theorem HasValue.exists_of_concat (h : HasValue base k (s ++ [b]) n) :
    ∃ m d, HasValue base k s m ∧ digit? base b = some d ∧ n = base * m + d := by
  induction s generalizing k with
  | nil =>
    cases h with
    | digit hd rest =>
      cases rest
      exact ⟨k, _, .done, hd, rfl⟩
  | cons c s ih =>
    cases h with
    | digit hc rest =>
      obtain ⟨m, d, hm, hd, rfl⟩ := ih rest
      exact ⟨m, d, .digit hc hm, hd, rfl⟩

theorem HasValue.le (h : HasValue base m s n) (hbase : 0 < base) : m ≤ n := by
  induction h with
  | done => exact Nat.le_refl _
  | digit _ _ ih =>
    exact Nat.le_trans (Nat.le_add_right_of_le (Nat.le_mul_of_pos_left _ hbase)) ih

theorem HasValue.digit?_ne_none (h : HasValue base m s n) : ∀ b ∈ s, digit? base b ≠ none := by
  induction h with
  | done => exact List.forall_mem_nil _
  | digit hd _ ih =>
    refine List.forall_mem_cons.mpr ⟨?_, ih⟩
    rw [hd]
    exact Option.some_ne_none _

theorem hasValue_digits (hbase : 1 < base) (hsmall : base ≤ 16) (n : Nat) :
    HasValue base 0 (digits base n) n := by
  induction n using digits_induction hbase with
  | last n hn =>
    have h := HasValue.concat .done (m := 0) (digit?_digit hn hsmall)
    rwa [Nat.mul_zero, Nat.zero_add] at h
  | more m d _ hd ih => exact ih.concat (digit?_digit hd hsmall)

theorem hasValue_map_lowerCase : HasValue base m (s.map lowerCase) n ↔ HasValue base m s n := by
  induction s generalizing m with
  | nil => exact Iff.rfl
  | cons b s ih =>
    rw [List.map_cons]
    constructor
    · rintro ⟨⟩
      next hd rest => exact .digit (digit?_lowerCase b ▸ hd) (ih.mp rest)
    · rintro ⟨⟩
      next hd rest => exact .digit ((digit?_lowerCase b).trans hd) (ih.mpr rest)

theorem HasValue.zeros_append (h : HasValue base 0 s n) (hbase : 0 < base) (zeros : Nat) :
    HasValue base 0 (List.replicate zeros 48 ++ s) n := by
  induction zeros with
  | zero => exact h
  | succ zeros ih =>
    have hzero : digit? base 48 = some 0 := by
      rw [digit?, show digitValue? 48 = some 0 from rfl, Option.filter_some,
        if_pos (by simpa using hbase)]
    exact .digit hzero (by rwa [Nat.mul_zero])

/-- Digits of a value are those that are written for it, with zeros in front. -/
theorem HasValue.exists_zeros (h : HasValue base 0 s n) (hbase : 1 < base) (hne : s ≠ []) :
    ∃ zeros, s.map lowerCase = List.replicate zeros 48 ++ digits base n := by
  induction s using List.reverseRecOn generalizing n with
  | nil => exact absurd rfl hne
  | append_singleton s b ih =>
    obtain ⟨m, d, hm, hd, rfl⟩ := h.exists_of_concat
    obtain ⟨hlt, hlower⟩ := lowerCase_of_digit? hd
    rw [List.map_append, List.map_singleton, hlower]
    by_cases hs : s = []
    · subst hs
      cases hm
      refine ⟨0, ?_⟩
      rw [Nat.mul_zero, Nat.zero_add, digits_of_lt hlt]
      rfl
    · obtain ⟨zeros, hzeros⟩ := ih hm hs
      rw [hzeros]
      by_cases hm0 : m = 0
      · subst hm0
        refine ⟨zeros + 1, ?_⟩
        rw [Nat.mul_zero, Nat.zero_add, digits_of_lt hlt, digits_of_lt (by omega),
          List.replicate_succ']
        rfl
      · refine ⟨zeros, ?_⟩
        rw [digits_mul_add hbase hm0 hlt, List.append_assoc]

theorem hasValue_iff (hbase : 1 < base) (hsmall : base ≤ 16) :
    s ≠ [] ∧ HasValue base 0 s n ↔
      ∃ zeros, s.map lowerCase = List.replicate zeros 48 ++ digits base n := by
  constructor
  · rintro ⟨hne, h⟩
    exact h.exists_zeros hbase hne
  · rintro ⟨zeros, h⟩
    refine ⟨?_, ?_⟩
    · rintro rfl
      exact digits_ne_nil base n (List.append_eq_nil_iff.mp h.symm).2
    · rw [← hasValue_map_lowerCase, h]
      exact (hasValue_digits hbase hsmall n).zeros_append (by omega) zeros

/-! ## What is read -/

/-- The limit holds at every digit if it holds at the last one, as values only grow. -/
theorem valueFrom?_eq_some_iff (hbase : 0 < base) :
    valueFrom? base limit m s = some n ↔ HasValue base m s n ∧ (s ≠ [] → n < limit) := by
  induction s generalizing m with
  | nil =>
    constructor
    · rintro ⟨⟩
      exact ⟨.done, fun h => absurd rfl h⟩
    · rintro ⟨⟨⟩, -⟩
      rfl
  | cons b s ih =>
    rw [valueFrom?, Option.bind_eq_some_iff]
    constructor
    · rintro ⟨d, hd, h⟩
      split at h
      · next hlimit =>
        obtain ⟨rest, hrest⟩ := ih.mp h
        refine ⟨.digit hd rest, fun _ => ?_⟩
        cases rest with
        | done => exact hlimit
        | digit => exact hrest (List.cons_ne_nil _ _)
      · cases h
    · rintro ⟨⟨⟩, hlimit⟩
      next d hd rest =>
        have hlt := hlimit (List.cons_ne_nil _ _)
        refine ⟨d, hd, ?_⟩
        rw [if_pos (Nat.lt_of_le_of_lt (rest.le hbase) hlt)]
        exact ih.mpr ⟨rest, fun _ => hlt⟩

theorem natBelow?_eq_some_iff (hbase : 0 < base) :
    natBelow? base limit s = some n ↔ s ≠ [] ∧ HasValue base 0 s n ∧ n < limit := by
  unfold natBelow?
  split
  · next h => simp [List.isEmpty_iff.mp h]
  · next h =>
    have hne : s ≠ [] := fun hs => h (List.isEmpty_iff.mpr hs)
    rw [valueFrom?_eq_some_iff hbase]
    simp [hne]

theorem natBelow?_digits (hbase : 1 < base) (hsmall : base ≤ 16) (h : n < limit) :
    natBelow? base limit (digits base n) = some n :=
  (natBelow?_eq_some_iff (by omega)).mpr
    ⟨digits_ne_nil base n, hasValue_digits hbase hsmall n, h⟩

end

end HostLookup.Bytes
