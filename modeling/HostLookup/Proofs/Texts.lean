import HostLookup.Proofs.Numerals
import HostLookup.Proofs.Sockaddr
import HostLookup.Reply

/-!
# The bytes of a text

Numbers and addresses are written with digits and a few marks; no other byte is
in them, line feeds and spaces included. What is made of texts with a separator
between each two can be cut at that separator again.
-/

namespace HostLookup

open Bytes

def space : UInt8 := 32

/-! ## Numbers -/

namespace Bytes

variable {b : UInt8} {base : Nat}

theorem notMem_digits (hbase : 1 < base) (hsmall : base ≤ 16) (hb : digit? base b = none)
    (n : Nat) : b ∉ digits base n :=
  fun h => (hasValue_digits hbase hsmall n).digit?_ne_none b h hb

namespace Decimal

theorem digit?_eq_none (hb : isDigit b = false) : digit? 10 b = none := by
  rw [digit?_eq, if_neg (by simpa using hb)]

theorem notMem_ofNat (hb : isDigit b = false) (n : Nat) : b ∉ ofNat n :=
  notMem_digits (by decide) (by decide) (digit?_eq_none hb) n

theorem notMem_ofInt (hb : isDigit b = false) (sign : b ≠ 45) (n : Int) : b ∉ ofInt n := by
  cases n with
  | ofNat n => exact notMem_ofNat hb n
  | negSucc n =>
    rw [ofInt, List.mem_cons, not_or]
    exact ⟨sign, notMem_ofNat hb (n + 1)⟩

end Decimal

namespace Hex

theorem notMem_ofNat (hb : Hex.digit? b = none) (n : Nat) : b ∉ ofNat n :=
  notMem_digits (by decide) (by decide) hb n

theorem notMem_encode (hb : Hex.digit? b = none) (s : Bytes) : b ∉ encode s := by
  have hne : ∀ n < 16, b ≠ digit n := by
    rintro n hn rfl
    rw [Hex.digit?, digit?_digit hn (Nat.le_refl 16)] at hb
    cases hb
  intro h
  obtain ⟨x, -, hx⟩ := List.mem_flatMap.mp h
  rcases List.mem_cons.mp hx with hx | hx
  · exact hne _ (Nat.div_lt_of_lt_mul x.toNat_lt) hx
  · exact hne _ (Nat.mod_lt _ (by decide)) (List.mem_singleton.mp hx)

end Hex

/-! ## Pieces -/

variable {s t : Bytes} {pieces : List Bytes}

theorem notMem_append (hs : b ∉ s) (ht : b ∉ t) : b ∉ s ++ t := by
  rw [List.mem_append, not_or]
  exact ⟨hs, ht⟩

theorem mem_intercalate {sep : Bytes} (h : b ∈ sep.intercalate pieces) :
    b ∈ sep ∨ ∃ piece ∈ pieces, b ∈ piece := by
  induction pieces with
  | nil => cases h
  | cons piece pieces ih =>
    by_cases hpieces : pieces = []
    · rw [hpieces, List.intercalate_singleton] at h
      exact .inr ⟨piece, List.mem_cons_self, h⟩
    · rw [List.intercalate_cons_of_ne_nil hpieces, List.mem_append, List.mem_append] at h
      rcases h with (h | h) | h
      · exact .inr ⟨piece, List.mem_cons_self, h⟩
      · exact .inl h
      · exact (ih h).imp_right fun ⟨p, hp, hb⟩ => ⟨p, List.mem_cons_of_mem _ hp, hb⟩

theorem not_mem_intercalate {sep : Bytes} (hsep : b ∉ sep) (h : ∀ piece ∈ pieces, b ∉ piece) :
    b ∉ sep.intercalate pieces := by
  intro hb
  rcases mem_intercalate hb with hb | ⟨piece, hpiece, hb⟩
  · exact hsep hb
  · exact h piece hpiece hb

end Bytes

/-! ## Addresses, statuses and tokens -/

section

variable {b : UInt8}

theorem notMem_groupsText (hb : Hex.digit? b = none) (hcolon : b ≠ colon) (gs : List UInt16) :
    b ∉ groupsText gs := by
  refine not_mem_intercalate (by simpa using hcolon) fun piece h => ?_
  obtain ⟨g, -, rfl⟩ := List.mem_map.mp h
  exact Hex.notMem_ofNat hb _

theorem V4.notMem_text (hb : isDigit b = false) (hpoint : b ≠ point) (x : V4) : b ∉ x.text := by
  refine not_mem_intercalate (by simpa using hpoint) fun piece h => ?_
  obtain ⟨o, -, rfl⟩ := List.mem_map.mp h
  exact Decimal.notMem_ofNat hb _

theorem isDigit_of_digit?_eq_none (hb : Hex.digit? b = none) : isDigit b = false := by
  by_contra hdigit
  have h := Decimal.digit?_eq b
  rw [if_pos (by simpa using hdigit), digit?, Option.filter_eq_some_iff] at h
  rw [Hex.digit?, digit?, h.1, Option.filter_some] at hb
  have := h.2
  grind

theorem V6.notMem_text (hb : Hex.digit? b = none) (hpoint : b ≠ point) (hcolon : b ≠ colon)
    (x : V6) : b ∉ x.text := by
  have hmarks : b ∉ ascii "::" := by
    intro h
    rcases List.mem_cons.mp h with h | h
    · exact hcolon h
    · exact hcolon (List.mem_singleton.mp h)
  rw [V6.text]
  split
  · have hffff : ascii "::ffff:" = ascii "::" ++ (groupsText [0xffff] ++ ascii ":") := by
      decide +kernel
    rw [hffff]
    refine notMem_append (notMem_append hmarks (notMem_append ?_ ?_)) ?_
    · exact notMem_groupsText hb hcolon _
    · exact fun h => hcolon (List.mem_singleton.mp h)
    · exact V4.notMem_text (isDigit_of_digit?_eq_none hb) hpoint _
  · simp only
    split
    · exact notMem_append (notMem_append (notMem_groupsText hb hcolon _) hmarks)
        (notMem_groupsText hb hcolon _)
    · exact notMem_groupsText hb hcolon _

theorem Address.notMem_text (hb : Hex.digit? b = none) (hpoint : b ≠ point) (hcolon : b ≠ colon)
    (x : Address) : b ∉ x.text := by
  cases x with
  | v4 x => exact x.notMem_text (isDigit_of_digit?_eq_none hb) hpoint
  | v6 x => exact x.notMem_text hb hpoint hcolon

end

theorem Status.newline_notMem_name (s : Status) : newline ∉ s.name := by
  cases s <;> decide

theorem Hosts.newline_notMem_token (data : Bytes) (offset : Nat) :
    newline ∉ token data offset := by
  intro h
  have hblank := List.all_eq_true.mp List.all_takeWhile newline h
  cases hblank

theorem Reply.newline_notMem_oneLine (s : Bytes) : newline ∉ oneLine s := by
  intro h
  obtain ⟨b, -, hb⟩ := List.mem_map.mp h
  split at hb
  · cases hb
  · next hne => exact hne hb

end HostLookup
