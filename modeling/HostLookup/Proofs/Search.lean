import HostLookup.Proofs.Lookup
import Mathlib.Algebra.Group.Nat.Defs

/-!
# Searching any sorted index

`search` halves a range of positions until one is left. `Halving` is such a run
with the positions it reads: each is in the range and each halves it, so they
are few. The search asks for no more than neighbours in order, since
`compareTokens` is a linear order, and gives the first entry of the name.
-/

namespace HostLookup.Hosts

open Bytes

/-! ## The order -/

instance : Std.TransCmp compareTokens where
  eq_swap {a b} := (compareTokens_swap b a).symm
  isLE_trans {a b c} hab hbc := by
    rw [Ordering.isLE_iff_ne_gt, compareTokens_eq_gt_iff, Std.not_lt] at *
    exact Std.le_trans hab hbc

instance : Std.LawfulEqCmp compareTokens where
  compare_self := compareTokens_eq_eq_iff.mpr rfl
  eq_of_compare h := compareTokens_eq_eq_iff.mp h

namespace Index

/-- No entry is before its left neighbour. -/
def IsOrdered (data : Bytes) (entries : Index) : Prop :=
  ∀ i (h : i + 1 < entries.size),
    compareTokens (token data entries[i].name) (token data entries[i + 1].name) ≠ .gt

def middle (lo hi : Nat) : Nat := lo + (hi - lo) / 2

/-- A run of halvings from the positions from `lo` to `hi` down to one, with the positions that it
reads. -/
inductive Halving (data : Bytes) (entries : Index) (name : Bytes) :
    Nat → Nat → List Nat → Nat → Prop where
  | done (k : Nat) : Halving data entries name k k [] k
  | right {lo hi k : Nat} {reads : List Nat} (nonempty : lo < hi)
      (inRange : middle lo hi < entries.size)
      (before : compareTokens (token data entries[middle lo hi].name) name = .lt)
      (rest : Halving data entries name (middle lo hi + 1) hi reads k) :
      Halving data entries name lo hi (middle lo hi :: reads) k
  | left {lo hi k : Nat} {reads : List Nat} (nonempty : lo < hi)
      (inRange : middle lo hi < entries.size)
      (notBefore : compareTokens (token data entries[middle lo hi].name) name ≠ .lt)
      (rest : Halving data entries name lo (middle lo hi) reads k) :
      Halving data entries name lo hi (middle lo hi :: reads) k

section

variable {data name : Bytes} {entries : Index} {lo hi k : Nat} {reads : List Nat}

theorem IsOrdered.le_add (h : IsOrdered data entries) {i : Nat} (d : Nat)
    (hi : i + d < entries.size) :
    token data entries[i].name ≤ token data entries[i + d].name := by
  induction d with
  | zero => exact Std.le_refl _
  | succ d ih =>
    have hnext := h (i + d) hi
    rw [Ne, compareTokens_eq_gt_iff, Std.not_lt] at hnext
    exact Std.le_trans (ih (by omega)) hnext

theorem IsOrdered.isSorted (h : IsOrdered data entries) : IsSorted data entries := by
  apply List.pairwise_iff_getElem.mpr
  intro i j hi hj hij
  obtain ⟨d, rfl⟩ := Nat.exists_eq_add_of_le (Nat.le_of_lt hij)
  exact h.le_add d (by simpa using hj)

/-! ## Halving -/

theorem middle_mem (h : lo < hi) : lo ≤ middle lo hi ∧ middle lo hi < hi := by
  unfold middle
  omega

theorem exists_halving (name : Bytes) (hle : lo ≤ hi) (h : hi ≤ entries.size) :
    ∃ reads, Halving data entries name lo hi reads (lowerBound data entries name lo hi h) := by
  fun_induction lowerBound data entries name lo hi h with
  | case1 lo hi h hlt mid hmid hc ih =>
    obtain ⟨reads, hrun⟩ := ih (middle_mem hlt).2
    exact ⟨_, .right hlt hmid hc hrun⟩
  | case2 lo hi h hlt mid hmid hc ih =>
    obtain ⟨reads, hrun⟩ := ih (middle_mem hlt).1
    exact ⟨_, .left hlt hmid hc hrun⟩
  | case3 lo hi h hlt =>
    obtain rfl : lo = hi := by omega
    exact ⟨_, .done lo⟩

theorem Halving.mem_range (h : Halving data entries name lo hi reads k) :
    ∀ i ∈ reads, lo ≤ i ∧ i < hi := by
  induction h with
  | done k => exact List.forall_mem_nil _
  | right hlt _ _ _ ih =>
    have hmid := middle_mem hlt
    refine List.forall_mem_cons.mpr ⟨hmid, fun i hi => ?_⟩
    have := ih i hi
    omega
  | left hlt _ _ _ ih =>
    have hmid := middle_mem hlt
    refine List.forall_mem_cons.mpr ⟨hmid, fun i hi => ?_⟩
    have := ih i hi
    omega

/-- A range of less than `2 ^ n` positions is used up by `n` reads. -/
theorem Halving.length_le (h : Halving data entries name lo hi reads k) {n : Nat}
    (hn : hi - lo < 2 ^ n) : reads.length ≤ n := by
  induction h generalizing n with
  | done k => exact Nat.zero_le n
  | @right lo hi k reads hlt _ _ _ ih | @left lo hi k reads hlt _ _ _ ih =>
    cases n with
    | zero =>
      rw [Nat.pow_zero] at hn
      omega
    | succ n =>
      rw [Nat.pow_succ] at hn
      rw [List.length_cons]
      apply Nat.succ_le_succ
      apply ih
      unfold middle
      omega

/-! ## What is found -/

theorem search_eq_some_iff (hs : IsSorted data entries) {e : Entry} :
    search data entries name = some e ↔
      ∃ i, ∃ h : i < entries.size, entries[i] = e ∧ token data e.name = name ∧
        ∀ j (hj : j < i), token data entries[j].name ≠ name := by
  rw [search_eq_find? hs, List.find?_eq_some_iff_getElem]
  simp only [Array.length_toList, Array.getElem_toList, beq_iff_eq, Bool.not_eq_true',
    beq_eq_false_iff_ne]
  constructor
  · rintro ⟨hname, i, hi, rfl, hfirst⟩
    exact ⟨i, hi, rfl, hname, hfirst⟩
  · rintro ⟨i, hi, rfl, hname, hfirst⟩
    exact ⟨hname, i, hi, rfl, hfirst⟩

theorem search_eq_none_iff (hs : IsSorted data entries) :
    search data entries name = none ↔ ∀ e ∈ entries, token data e.name ≠ name := by
  rw [search_eq_find? hs, List.find?_eq_none]
  simp only [beq_iff_eq, Array.mem_toList_iff, ne_eq]

end

/--
Searching a list of entries in the order of their names, of which several may have one name or an
empty one, and which may point past the end of the data. A run of halvings leads to the answer, the
first entry of the name, and reads few entries, none of them out of range. The order it rests on is
linear, and that of the bytes.
-/
theorem search_exact (data : Bytes) (entries : Index) (ordered : IsOrdered data entries)
    (name : Bytes) :
    (∃ reads k, Halving data entries name 0 entries.size reads k ∧
      (∀ i ∈ reads, i < entries.size) ∧ reads.length ≤ entries.size.log2 + 1 ∧
      search data entries name = entries[k]?.filter fun e => token data e.name == name) ∧
    (∀ e, search data entries name = some e ↔
      ∃ i, ∃ h : i < entries.size, entries[i] = e ∧ token data e.name = name ∧
        ∀ j (hj : j < i), token data entries[j].name ≠ name) ∧
    (search data entries name = none ↔ ∀ e ∈ entries, token data e.name ≠ name) ∧
    Std.TransCmp compareTokens ∧ Std.LawfulEqCmp compareTokens ∧
    ∀ a b, compareTokens a b = .lt ↔ List.Lex (· < ·) a b := by
  have hs := ordered.isSorted
  obtain ⟨reads, hrun⟩ : ∃ reads, Halving data entries name 0 entries.size reads
      (lowerBound data entries name 0 entries.size (Nat.le_refl _)) :=
    exists_halving name (Nat.zero_le _) (Nat.le_refl _)
  refine ⟨⟨reads, _, hrun, fun i hi => (hrun.mem_range i hi).2, ?_, rfl⟩,
    fun e => search_eq_some_iff hs, search_eq_none_iff hs, inferInstance, inferInstance,
    fun a b => compareTokens_eq_lt_iff⟩
  exact hrun.length_le (Nat.lt_log2_self (n := entries.size))

/-- Two entries past the end, one at a blank and two of one name. -/
def sampleEntries : Index := #[⟨0, 9⟩, ⟨2, 1⟩, ⟨0, 7⟩, ⟨4, 2⟩, ⟨0, 2⟩, ⟨2, 0⟩]

theorem sampleEntries_searched :
    IsOrdered (ascii "b a") sampleEntries ∧
      search (ascii "b a") sampleEntries (ascii "a") = some ⟨4, 2⟩ ∧
      search (ascii "b a") sampleEntries [] = some ⟨0, 9⟩ ∧
      search (ascii "b a") sampleEntries (ascii "ab") = none := by
  have neighbours : ∀ i < 5, ∀ h : i + 1 < sampleEntries.size,
      compareTokens (token (ascii "b a") sampleEntries[i].name)
        (token (ascii "b a") sampleEntries[i + 1].name) ≠ .gt := by
    decide
  have ordered : IsOrdered (ascii "b a") sampleEntries := fun i h =>
    neighbours i (Nat.lt_of_succ_lt_succ h) h
  obtain ⟨-, found, -⟩ := search_exact _ _ ordered (ascii "a")
  obtain ⟨-, foundEmpty, -⟩ := search_exact _ _ ordered []
  obtain ⟨-, -, missing, -⟩ := search_exact _ _ ordered (ascii "ab")
  refine ⟨ordered, (found _).mpr ⟨3, by decide, by decide, by decide, by decide⟩,
    (foundEmpty _).mpr ⟨0, by decide, by decide, by decide, by decide⟩, missing.mpr (by decide)⟩

end Index

end HostLookup.Hosts
