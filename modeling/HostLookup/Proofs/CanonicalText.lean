import HostLookup.Proofs.AddressText

/-!
# Canonical address texts

`CanonicalText` says which text of an address is the canonical one without
saying how it is found: the zeros that `::` stands for are a first longest run
of at least two, and an address with four octets mapped into it ends in them.
`canonicalText_iff` shows that every address has one such text, the one that is
written.
-/

namespace HostLookup

open Bytes

/-- The groups are zero between `front` and `back`, and no earlier or longer stretch is. -/
structure FirstLongestRun (gs front : List UInt16) (n : Nat) (back : List UInt16) : Prop where
  eq : gs = front ++ List.replicate n 0 ++ back
  longest : ∀ front' m back', gs = front' ++ List.replicate m 0 ++ back' →
    m ≤ n ∧ (m = n → front.length ≤ front'.length)

/-- The octets of `y` stand after ten zeros and two octets of ones. -/
def V6.Maps (x : V6) (y : V4) : Prop := x.octets = List.replicate 10 0 ++ [255, 255] ++ y.octets

/-- The canonical text of an address. -/
inductive CanonicalText : Address → Bytes → Prop where
  | octets (x : V4) :
      CanonicalText (.v4 x) ([point].intercalate (x.octets.map fun o => Decimal.ofNat o.toNat))
  | mapped {x : V6} {y : V4} {t : Bytes} (maps : x.Maps y) (inner : CanonicalText (.v4 y) t) :
      CanonicalText (.v6 x) (ascii "::ffff:" ++ t)
  | compressed {x : V6} {front back : List UInt16} {n : Nat} (unmapped : ∀ y, ¬ x.Maps y)
      (run : FirstLongestRun x.groups front n back) (two : 2 ≤ n) :
      CanonicalText (.v6 x) (groupsText front ++ ascii "::" ++ groupsText back)
  | full {x : V6} (unmapped : ∀ y, ¬ x.Maps y)
      (single : ∀ front n back, x.groups = front ++ List.replicate n 0 ++ back → n < 2) :
      CanonicalText (.v6 x) (groupsText x.groups)

section

variable {gs front back : List UInt16} {n : Nat} {x : V6} {y : V4}

/-! ## Runs of zeros -/

theorem le_length_takeWhile_zeros (n : Nat) (back : List UInt16) :
    n ≤ ((List.replicate n 0 ++ back).takeWhile (· == 0)).length := by
  rw [List.takeWhile_append_of_pos (by simp), List.length_append, List.length_replicate]
  exact Nat.le_add_right n _

theorem longestZeroRun_longest (start : Nat)
    (h : gs = front ++ List.replicate n 0 ++ back) :
    n ≤ (longestZeroRun start gs).length ∧
      (n = (longestZeroRun start gs).length →
        (longestZeroRun start gs).start ≤ start + front.length) := by
  induction gs generalizing start front with
  | nil =>
    obtain ⟨hfront, -⟩ := List.append_eq_nil_iff.mp h.symm
    have hn : n = 0 := (List.replicate_eq_nil_iff _).mp (List.append_eq_nil_iff.mp hfront).2
    exact ⟨Nat.le_of_eq hn, fun _ => Nat.le_add_right start _⟩
  | cons g gs ih =>
    rw [longestZeroRun]
    cases front with
    | nil =>
      have hhere : n ≤ ((g :: gs).takeWhile (· == 0)).length := by
        rw [h]
        exact le_length_takeWhile_zeros n back
      split
      · next hlater => exact ⟨Nat.le_of_lt (Nat.lt_of_le_of_lt hhere hlater), by omega⟩
      · exact ⟨hhere, fun _ => Nat.le_add_right start _⟩
    | cons f front =>
      obtain ⟨hle, hstart⟩ := ih (start + 1) (List.cons.inj h).2
      rw [List.length_cons]
      split
      · exact ⟨hle, fun hn => by have := hstart hn; omega⟩
      · next hlater =>
        exact ⟨Nat.le_trans hle (Nat.le_of_not_lt hlater), fun _ => Nat.le_add_right start _⟩

theorem exists_firstLongestRun (gs : List UInt16) :
    ∃ front n back, FirstLongestRun gs front n back := by
  obtain ⟨a, n, hrun, hgs⟩ := longestZeroRun_spec 0 gs
  refine ⟨_, _, _, hgs, fun front' m back' h => ?_⟩
  obtain ⟨hle, hstart⟩ := longestZeroRun_longest 0 h
  rw [hrun, Nat.zero_add, Nat.zero_add] at hstart
  rw [hrun] at hle
  exact ⟨hle, fun hm => Nat.le_trans (List.length_take_le a gs) (hstart hm)⟩

theorem FirstLongestRun.longestZeroRun_eq (h : FirstLongestRun gs front n back) :
    longestZeroRun 0 gs = ⟨front.length, n⟩ := by
  obtain ⟨a, m, hrun, hgs⟩ := longestZeroRun_spec 0 gs
  obtain ⟨hnm, ha⟩ := longestZeroRun_longest 0 h.eq
  obtain ⟨hmn, hfront⟩ := h.longest _ _ _ hgs
  rw [hrun] at hnm ha ⊢
  rw [Nat.zero_add, Nat.zero_add] at ha
  rw [Nat.zero_add]
  obtain rfl : n = m := Nat.le_antisymm hnm hmn
  have hle : front.length ≤ a := Nat.le_trans (hfront rfl) (List.length_take_le a gs)
  exact congrArg (ZeroRun.mk · n) (Nat.le_antisymm (ha rfl) hle)

/-! ## Mapped octets -/

theorem V6.maps_iff : x.Maps y ↔ x.groups =
    [0, 0, 0, 0, 0, 0xffff, groupOf y.a y.b, groupOf y.c y.d] := by
  constructor
  · intro h
    rw [← groupsOfOctets_flatMap x.groups]
    exact congrArg groupsOfOctets h
  · intro h
    rw [Maps, octets, h]
    simp only [List.flatMap_cons, groupOctets_groupOf]
    rfl

theorem V6.embedded?_eq_some_iff : x.embedded? = some y ↔ x.Maps y := by
  rw [maps_iff, embedded?]
  constructor
  · intro h
    split at h
    · next hi lo hgroups =>
      cases h
      rw [groupOf_octets, groupOf_octets, hgroups]
    · cases h
  · intro h
    have hab := groupOctets_groupOf y.a y.b
    have hcd := groupOctets_groupOf y.c y.d
    simp only [groupOctets, List.cons.injEq, and_true] at hab hcd
    rw [h]
    simp only [hab, hcd]

/-! ## Texts -/

theorem V6.text_of_maps (h : x.Maps y) : x.text = ascii "::ffff:" ++ y.text := by
  rw [text, embedded?_eq_some_iff.mpr h]

theorem V6.text_of_run (unmapped : ∀ y, ¬ x.Maps y) (run : FirstLongestRun x.groups front n back) :
    x.text = if 1 < n then groupsText front ++ ascii "::" ++ groupsText back
      else groupsText x.groups := by
  have hnone : x.embedded? = none :=
    Option.eq_none_iff_forall_not_mem.mpr fun y hy => unmapped y (embedded?_eq_some_iff.mp hy)
  have hfront : x.groups.take front.length = front := by
    rw [run.eq, List.append_assoc, List.take_left]
  have hback : x.groups.drop (front.length + n) = back := by
    rw [run.eq, List.drop_left' (by simp)]
  rw [text, hnone, run.longestZeroRun_eq]
  simp only [hfront, hback]

theorem CanonicalText.eq_text {x : Address} {t : Bytes} (h : CanonicalText x t) : x.text = t := by
  cases h with
  | octets x => rfl
  | mapped maps inner =>
    cases inner
    exact V6.text_of_maps maps
  | compressed unmapped run two =>
    rw [Address.text, V6.text_of_run unmapped run, if_pos (Nat.lt_of_succ_le two)]
  | @full x unmapped single =>
    obtain ⟨front, n, back, run⟩ := exists_firstLongestRun x.groups
    have hn := Nat.not_lt_of_le (Nat.le_of_lt_succ (single _ _ _ run.eq))
    rw [Address.text, V6.text_of_run unmapped run, if_neg hn]

theorem canonicalText_text (x : Address) : CanonicalText x x.text := by
  cases x with
  | v4 x => exact .octets x
  | v6 x =>
    rw [Address.text]
    by_cases hmaps : ∃ y, x.Maps y
    · obtain ⟨y, hy⟩ := hmaps
      rw [V6.text_of_maps hy]
      exact .mapped hy (.octets y)
    · have unmapped : ∀ y, ¬ x.Maps y := fun y hy => hmaps ⟨y, hy⟩
      obtain ⟨front, n, back, run⟩ := exists_firstLongestRun x.groups
      rw [V6.text_of_run unmapped run]
      split
      · next two => exact .compressed unmapped run two
      · next short =>
        refine .full unmapped fun front' m back' h => ?_
        have hone := Nat.le_of_not_lt short
        exact Nat.lt_of_le_of_lt (run.longest _ _ _ h).1 (Nat.lt_succ_of_le hone)

/-- Every address has one canonical text, the one that is written. -/
theorem canonicalText_iff {x : Address} {t : Bytes} : CanonicalText x t ↔ x.text = t :=
  ⟨CanonicalText.eq_text, fun h => h ▸ canonicalText_text x⟩

end

end HostLookup
