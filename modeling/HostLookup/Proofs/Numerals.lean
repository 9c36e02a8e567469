import HostLookup.Bytes.Decimal
import HostLookup.Proofs.Digits

/-!
# Reading decimal numbers back

`Decimal.Spells s n` says which number a text spells: a run of digits, leading
zeros allowed, with a sign in front or without one. The readers of decimal
numbers take exactly the texts that spell a number in their range
(`int32?_eq_some_iff`, `uint32?_eq_some_iff`), so they read back what is
written.
-/

namespace HostLookup.Bytes

namespace Decimal

/-- The value of the digits `ds` after the value `n`. -/
def valueAfter (n : Nat) (ds : Bytes) : Nat := ds.foldl (fun m d => 10 * m + (d.toNat - 48)) n

def value (ds : Bytes) : Nat := valueAfter 0 ds

def IsNumeral (ds : Bytes) : Prop := ds ≠ [] ∧ ∀ d ∈ ds, isDigit d = true

/-- The number that a run of digits spells, with or without a sign. -/
inductive Spells : Bytes → Int → Prop where
  | plain {ds : Bytes} (digits : IsNumeral ds) : Spells ds (value ds)
  | plus {ds : Bytes} (digits : IsNumeral ds) : Spells (43 :: ds) (value ds)
  | minus {ds : Bytes} (digits : IsNumeral ds) : Spells (45 :: ds) (-(value ds : Int))

section

variable {limit m n : Nat} {s ds : Bytes}

/-! ## Runs of digits -/

theorem digit?_eq (b : UInt8) :
    digit? 10 b = if isDigit b then some (b.toNat - 48) else none := by
  rw [digit?, digitValue?_eq, isDigit]
  simp only [Bool.and_eq_true, decide_eq_true_eq, UInt8.le_iff_toNat_le, UInt8.reduceToNat]
  grind

theorem hasValue_iff :
    HasValue 10 m s n ↔ (∀ d ∈ s, isDigit d = true) ∧ valueAfter m s = n := by
  induction s generalizing m with
  | nil =>
    constructor
    · rintro ⟨⟩
      exact ⟨List.forall_mem_nil _, rfl⟩
    · rintro ⟨-, rfl⟩
      exact .done
  | cons d s ih =>
    have hvalue : valueAfter m (d :: s) = valueAfter (10 * m + (d.toNat - 48)) s := rfl
    rw [hvalue, List.forall_mem_cons]
    constructor
    · rintro ⟨⟩
      next hd rest =>
        rw [digit?_eq] at hd
        split at hd
        · next hdigit =>
          cases hd
          obtain ⟨hs, hn⟩ := ih.mp rest
          exact ⟨⟨hdigit, hs⟩, hn⟩
        · cases hd
    · rintro ⟨⟨hd, hs⟩, hn⟩
      exact .digit (by rw [digit?_eq, if_pos hd]) (ih.mpr ⟨hs, hn⟩)

theorem isNumeral_and_value_iff : IsNumeral s ∧ value s = n ↔ s ≠ [] ∧ HasValue 10 0 s n := by
  rw [hasValue_iff, IsNumeral, value, and_assoc]

theorem natBelow?_eq_some_iff :
    natBelow? 10 limit s = some n ↔ IsNumeral s ∧ value s = n ∧ n < limit := by
  rw [Bytes.natBelow?_eq_some_iff (by decide), ← and_assoc, ← isNumeral_and_value_iff, and_assoc]

/-! ## Signs -/

theorem spells_plus_iff {k : Int} : Spells (43 :: ds) k ↔ IsNumeral ds ∧ (value ds : Int) = k := by
  constructor
  · rintro (digits | digits)
    · cases digits.2 43 List.mem_cons_self
    · exact ⟨digits, rfl⟩
  · rintro ⟨digits, rfl⟩
    exact .plus digits

theorem spells_minus_iff {k : Int} :
    Spells (45 :: ds) k ↔ IsNumeral ds ∧ -(value ds : Int) = k := by
  constructor
  · rintro (digits | _ | digits)
    · cases digits.2 45 List.mem_cons_self
    · exact ⟨digits, rfl⟩
  · rintro ⟨digits, rfl⟩
    exact .minus digits

theorem spells_iff_of_unsigned {k : Int} (plus : ∀ t, s ≠ 43 :: t) (minus : ∀ t, s ≠ 45 :: t) :
    Spells s k ↔ IsNumeral s ∧ (value s : Int) = k := by
  constructor
  · rintro (digits | _ | _)
    · exact ⟨digits, rfl⟩
    · exact absurd rfl (plus _)
    · exact absurd rfl (minus _)
  · rintro ⟨digits, rfl⟩
    exact .plain digits

/-! ## What is written -/

theorem isNumeral_zeros_append (zeros n : Nat) :
    IsNumeral (List.replicate zeros 48 ++ ofNat n) ∧
      value (List.replicate zeros 48 ++ ofNat n) = n := by
  rw [isNumeral_and_value_iff]
  exact ⟨List.append_ne_nil_of_right_ne_nil _ (digits_ne_nil 10 n),
    (hasValue_digits (by decide) (by decide) n).zeros_append (by decide) zeros⟩

theorem isNumeral_ofNat (n : Nat) : IsNumeral (ofNat n) := (isNumeral_zeros_append 0 n).1

theorem value_ofNat (n : Nat) : value (ofNat n) = n := (isNumeral_zeros_append 0 n).2

theorem lowerCase_of_isDigit {d : UInt8} (h : isDigit d = true) : lowerCase d = d := by
  simp only [isDigit, Bool.and_eq_true, decide_eq_true_eq, UInt8.le_iff_toNat_le,
    UInt8.reduceToNat] at h
  rw [← UInt8.toNat_inj, toNat_lowerCase, if_neg (by omega)]

theorem eq_ofNat_value (h : IsNumeral s) (hfront : s.length = 1 ∨ s.head? ≠ some 48) :
    s = ofNat (value s) := by
  obtain ⟨hne, hvalue⟩ := isNumeral_and_value_iff.mp ⟨h, rfl⟩
  obtain ⟨zeros, hzeros⟩ := hvalue.exists_zeros (by decide) hne
  rw [List.map_congr_left fun d hd => lowerCase_of_isDigit (h.2 d hd), List.map_id'] at hzeros
  cases zeros with
  | zero => exact hzeros
  | succ zeros =>
    have hdigits := List.length_pos_iff.mpr (digits_ne_nil 10 (value s))
    have hlength := congrArg List.length hzeros
    rw [List.length_append, List.length_replicate] at hlength
    rcases hfront with hone | hhead
    · omega
    · rw [hzeros, List.replicate_succ] at hhead
      exact absurd rfl hhead

theorem spells_ofInt (n : Int) : Spells (ofInt n) n := by
  cases n with
  | ofNat n =>
    have h := Spells.plain (isNumeral_ofNat n)
    rw [value_ofNat] at h
    exact h
  | negSucc n =>
    have h := Spells.minus (isNumeral_ofNat (n + 1))
    rw [value_ofNat] at h
    exact h

end

/-! ## Numbers of 32 bits -/

section

variable {s : Bytes}

theorem uint32?_eq_some_iff {n : UInt32} :
    uint32? s = some n ↔ IsNumeral s ∧ value s = n.toNat := by
  rw [uint32?, Option.map_eq_some_iff]
  constructor
  · rintro ⟨m, hm, rfl⟩
    obtain ⟨hs, rfl, hlimit⟩ := natBelow?_eq_some_iff.mp hm
    exact ⟨hs, (UInt32.toNat_ofNat_of_lt hlimit).symm⟩
  · rintro ⟨hs, hvalue⟩
    exact ⟨_, natBelow?_eq_some_iff.mpr ⟨hs, hvalue, n.toNat_lt⟩, UInt32.ofNat_toNat⟩

theorem uint32?_eq_none_iff : uint32? s = none ↔ ¬ (IsNumeral s ∧ value s < 2 ^ 32) := by
  rw [Option.eq_none_iff_forall_ne_some, not_and]
  constructor
  · intro h hs hvalue
    exact h _ (uint32?_eq_some_iff.mpr ⟨hs, (UInt32.toNat_ofNat_of_lt hvalue).symm⟩)
  · intro h n hn
    obtain ⟨hs, hvalue⟩ := uint32?_eq_some_iff.mp hn
    exact h hs (hvalue ▸ n.toNat_lt)

theorem int32?_eq_some_iff {n : Int32} : int32? s = some n ↔ Spells s n.toInt := by
  have hlo := n.le_toInt
  have hhi := n.toInt_lt
  have unsigned : ∀ ds, (natBelow? 10 2147483648 ds).map (fun n => Int32.ofNat n) = some n ↔
      IsNumeral ds ∧ (value ds : Int) = n.toInt := by
    intro ds
    rw [Option.map_eq_some_iff]
    constructor
    · rintro ⟨m, hm, rfl⟩
      obtain ⟨hs, rfl, hlimit⟩ := natBelow?_eq_some_iff.mp hm
      exact ⟨hs, (Int32.toInt_ofNat_of_lt hlimit).symm⟩
    · rintro ⟨hs, hvalue⟩
      refine ⟨value ds, natBelow?_eq_some_iff.mpr ⟨hs, rfl, by omega⟩, ?_⟩
      rw [← Int32.toInt_inj, Int32.toInt_ofNat_of_lt (by omega), hvalue]
  have negative : ∀ ds, (natBelow? 10 2147483649 ds).map (fun n => Int32.ofInt (-(Int.ofNat n))) =
      some n ↔ IsNumeral ds ∧ -(value ds : Int) = n.toInt := by
    intro ds
    rw [Option.map_eq_some_iff]
    constructor
    · rintro ⟨m, hm, rfl⟩
      obtain ⟨hs, rfl, hlimit⟩ := natBelow?_eq_some_iff.mp hm
      exact ⟨hs, (Int32.toInt_ofInt_of_le (by omega) (by omega)).symm⟩
    · rintro ⟨hs, hvalue⟩
      refine ⟨value ds, natBelow?_eq_some_iff.mpr ⟨hs, rfl, by omega⟩, ?_⟩
      rw [Int.ofNat_eq_natCast, hvalue, Int32.ofInt_toInt]
  unfold int32?
  split
  · rw [unsigned, spells_plus_iff]
  · rw [negative, spells_minus_iff]
  · next plus minus => rw [unsigned, spells_iff_of_unsigned plus minus]

theorem int32?_ofInt32 (n : Int32) : int32? (ofInt32 n) = some n :=
  int32?_eq_some_iff.mpr (spells_ofInt n.toInt)

theorem uint32?_ofNat (n : UInt32) : uint32? (ofNat n.toNat) = some n :=
  uint32?_eq_some_iff.mpr ⟨isNumeral_ofNat _, value_ofNat _⟩

end

end Decimal

end HostLookup.Bytes
