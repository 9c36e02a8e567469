import HostLookup.Hosts.Index

/-!
# The order of tokens

Comparing the common length first and the lengths then is comparing byte by
byte: `compareTokens` is the lexicographic order of byte strings, which is
linear.
-/

namespace HostLookup.Hosts

open Bytes

variable {a b : Bytes}

theorem compareTokens_nil_nil : compareTokens [] [] = .eq := rfl

theorem compareTokens_nil_cons (b : UInt8) (bs : Bytes) : compareTokens [] (b :: bs) = .lt := by
  simp [compareTokens, compareBytes, Nat.compare_eq_lt]

theorem compareTokens_cons_nil (a : UInt8) (as : Bytes) : compareTokens (a :: as) [] = .gt := by
  simp [compareTokens, compareBytes, Nat.compare_eq_gt]

theorem compareTokens_cons_cons (a b : UInt8) (as bs : Bytes) :
    compareTokens (a :: as) (b :: bs) =
      if a < b then .lt else if b < a then .gt else compareTokens as bs := by
  have hlen : compare (as.length + 1) (bs.length + 1) = compare as.length bs.length := by
    simp only [compare, compareOfLessAndEq, Nat.add_lt_add_iff_right, Nat.add_right_cancel_iff]
  unfold compareTokens
  simp only [List.length_cons, Nat.succ_min_succ, List.take_succ_cons, compareBytes, hlen]
  split
  · rfl
  · split <;> rfl

theorem compareTokens_swap (a b : Bytes) : (compareTokens a b).swap = compareTokens b a := by
  induction a generalizing b with
  | nil =>
    cases b with
    | nil => rfl
    | cons b bs => rw [compareTokens_nil_cons, compareTokens_cons_nil]; rfl
  | cons a as ih =>
    cases b with
    | nil => rw [compareTokens_nil_cons, compareTokens_cons_nil]; rfl
    | cons b bs =>
      rw [compareTokens_cons_cons, compareTokens_cons_cons]
      by_cases hlt : a < b
      · rw [if_pos hlt, if_neg (Std.not_lt.mpr (Std.le_of_lt hlt)), if_pos hlt]
        rfl
      · by_cases hgt : b < a
        · rw [if_neg hlt, if_pos hgt, if_pos hgt]
          rfl
        · rw [if_neg hlt, if_neg hgt, if_neg hgt, if_neg hlt, ih]

theorem compareTokens_eq_lt_iff : compareTokens a b = .lt ↔ a < b := by
  induction a generalizing b with
  | nil =>
    cases b with
    | nil => simp [compareTokens_nil_nil]
    | cons b bs => simp [compareTokens_nil_cons]
  | cons a as ih =>
    cases b with
    | nil => simp [compareTokens_cons_nil]
    | cons b bs =>
      rw [compareTokens_cons_cons, List.cons_lt_cons_iff]
      by_cases hlt : a < b
      · simp [hlt]
      · by_cases hgt : b < a
        · have : a ≠ b := by
            rintro rfl
            exact hlt hgt
          simp [hlt, hgt, this]
        · have : a = b := Std.le_antisymm (Std.not_lt.mp hgt) (Std.not_lt.mp hlt)
          simp [this, ih]

theorem compareTokens_eq_gt_iff : compareTokens a b = .gt ↔ b < a := by
  rw [← compareTokens_eq_lt_iff, ← compareTokens_swap a b]
  cases compareTokens a b <;> decide

theorem compareTokens_eq_eq_iff : compareTokens a b = .eq ↔ a = b := by
  constructor
  · intro h
    have hlt : ¬ a < b := by
      rw [← compareTokens_eq_lt_iff, h]
      decide
    have hgt : ¬ b < a := by
      rw [← compareTokens_eq_gt_iff, h]
      decide
    exact Std.le_antisymm (Std.not_lt.mp hgt) (Std.not_lt.mp hlt)
  · rintro rfl
    cases h : compareTokens a a with
    | eq => rfl
    | lt => exact absurd (compareTokens_eq_lt_iff.mp h) Std.lt_irrefl
    | gt => exact absurd (compareTokens_eq_gt_iff.mp h) Std.lt_irrefl

theorem compareTokens_ne_gt_iff : (compareTokens a b != .gt) = true ↔ a ≤ b := by
  rw [bne_iff_ne, Ne, compareTokens_eq_gt_iff, Std.not_lt]

end HostLookup.Hosts
