import Mathlib.Algebra.Group.Nat.Defs
import HostLookup.Address.Endpoint
import HostLookup.Bytes.Hex
import HostLookup.Proofs.Digits

/-!
# Reading socket addresses back

`Hex.decode?` reads what `Hex.encode` writes, and `Endpoint.ofLayout?` reads a
socket address from the offsets of its fields. It wants the length of the
structure and zeros where an IPv4 one has padding, so what it reads says all
that there is (`ofLayout?_layout`).
-/

namespace HostLookup

open Bytes

/-! ## Hexadecimal -/

namespace Bytes.Hex

/-- The bytes that pairs of digits stand for. -/
def decode? : Bytes → Option Bytes
  | [] => some []
  | [_] => none
  | hi :: lo :: rest =>
    match digit? hi, digit? lo with
    | some h, some l => (decode? rest).map fun s => (16 * h + l).toUInt8 :: s
    | _, _ => none

theorem decode?_encode (s : Bytes) : decode? (encode s) = some s := by
  induction s with
  | nil => rfl
  | cons b s ih =>
    have hb := b.toNat_lt
    have hbyte : (16 * (b.toNat / 16) + b.toNat % 16).toUInt8 = b := by
      rw [Nat.div_add_mod]
      exact UInt8.ofNat_toNat
    have hcons : encode (b :: s) = digit (b.toNat / 16) :: digit (b.toNat % 16) :: encode s := rfl
    rw [hcons, decode?, digit?, digit?, digit?_digit (by omega) (Nat.le_refl 16),
      digit?_digit (by omega) (Nat.le_refl 16), ih]
    simp only [hbyte, Option.map_some]

end Bytes.Hex

/-! ## Numbers and fields -/

def numberOf : Bytes → Nat
  | [] => 0
  | b :: rest => b.toNat + 256 * numberOf rest

theorem numberOf_littleEndian {n x : Nat} (h : x < 256 ^ n) : numberOf (littleEndian n x) = x := by
  induction n generalizing x with
  | zero =>
    rw [Nat.pow_zero, Nat.lt_one_iff] at h
    exact h.symm
  | succ n ih =>
    have hdiv : x / 256 < 256 ^ n := by
      rw [Nat.pow_succ] at h
      exact Nat.div_lt_of_lt_mul (Nat.mul_comm _ _ ▸ h)
    have hbyte : (x % 256).toUInt8.toNat = x % 256 :=
      UInt8.toNat_ofNat_of_lt (Nat.mod_lt x (by decide))
    rw [littleEndian, numberOf, ih hdiv, hbyte]
    omega

theorem numberOf_bigEndian {n x : Nat} (h : x < 256 ^ n) :
    numberOf (bigEndian n x).reverse = x := by
  rw [bigEndian, List.reverse_reverse, numberOf_littleEndian h]

theorem length_littleEndian (n x : Nat) : (littleEndian n x).length = n := by
  induction n generalizing x with
  | zero => rfl
  | succ n ih => rw [littleEndian, List.length_cons, ih]

theorem length_bigEndian (n x : Nat) : (bigEndian n x).length = n := by
  rw [bigEndian, List.length_reverse, length_littleEndian]

def field (s : Bytes) (offset length : Nat) : Bytes := (s.drop offset).take length

theorem field_append {s t : Bytes} (u : Bytes) {offset length : Nat} (hs : s.length = offset)
    (ht : t.length = length) : field (s ++ (t ++ u)) offset length = t := by
  rw [field, List.drop_left' hs, List.take_left' ht]

/-! ## Addresses -/

theorem groupOf_octets (g : UInt16) :
    groupOf (g.toNat / 256).toUInt8 (g.toNat % 256).toUInt8 = g := by
  have hg := g.toNat_lt
  have hhi : (g.toNat / 256).toUInt8.toNat = g.toNat / 256 :=
    UInt8.toNat_ofNat_of_lt (Nat.div_lt_of_lt_mul hg)
  have hlo : (g.toNat % 256).toUInt8.toNat = g.toNat % 256 :=
    UInt8.toNat_ofNat_of_lt (Nat.mod_lt _ (by decide))
  rw [groupOf, hhi, hlo, Nat.mul_comm, Nat.div_add_mod]
  exact UInt16.ofNat_toNat

theorem groupOctets_groupOf (hi lo : UInt8) : groupOctets (groupOf hi lo) = [hi, lo] := by
  have hhi := hi.toNat_lt
  have hlo := lo.toNat_lt
  have hgroup : (groupOf hi lo).toNat = hi.toNat * 256 + lo.toNat :=
    UInt16.toNat_ofNat_of_lt (by change _ < 65536; omega)
  rw [groupOctets, hgroup]
  have h1 : (hi.toNat * 256 + lo.toNat) / 256 = hi.toNat := by omega
  have h2 : (hi.toNat * 256 + lo.toNat) % 256 = lo.toNat := by omega
  rw [h1, h2]
  simp

theorem groupsOfOctets_flatMap (gs : List UInt16) :
    groupsOfOctets (gs.flatMap groupOctets) = gs := by
  induction gs with
  | nil => rfl
  | cons g gs ih =>
    rw [List.flatMap_cons, groupOctets]
    simp only [List.cons_append, List.nil_append, groupsOfOctets, groupOf_octets, ih]

theorem length_flatMap_groupOctets (gs : List UInt16) :
    (gs.flatMap groupOctets).length = 2 * gs.length := by
  induction gs with
  | nil => rfl
  | cons g gs ih =>
    rw [List.flatMap_cons, List.length_append, ih, List.length_cons, Nat.mul_succ, Nat.add_comm]
    rfl

theorem V6.length_octets (x : V6) : x.octets.length = 16 := by
  rw [octets, length_flatMap_groupOctets, x.length_groups]

theorem V6.ofGroups?_octets (x : V6) : V6.ofGroups? (groupsOfOctets x.octets) = some x := by
  rw [octets, groupsOfOctets_flatMap, ofGroups?, dif_pos x.length_groups]

namespace Endpoint

/-- The endpoint of a socket address structure of either family. -/
def ofLayout? (s : Bytes) : Option Endpoint :=
  let family := numberOf (field s 0 2)
  let port := (numberOf (field s 2 2).reverse).toUInt16
  if family = 2 ∧ s.length = 16 ∧ field s 8 8 = List.replicate 8 0 then
    match field s 4 4 with
    | [a, b, c, d] => some (.v4 ⟨a, b, c, d⟩ port)
    | _ => none
  else if family = 10 ∧ s.length = 28 then
    (V6.ofGroups? (groupsOfOctets (field s 8 16))).map fun x =>
      .v6 x port (numberOf (field s 4 4).reverse).toUInt32 (numberOf (field s 24 4)).toUInt32
  else none

theorem ofLayout?_layout (e : Endpoint) : ofLayout? e.layout = some e := by
  cases e with
  | v4 x p =>
    have hport : (numberOf (field (v4 x p).layout 2 2).reverse).toUInt16 = p := by
      have hfield : field (v4 x p).layout 2 2 = bigEndian 2 p.toNat := rfl
      rw [hfield, numberOf_bigEndian p.toNat_lt]
      exact UInt16.ofNat_toNat
    have haddress : field (v4 x p).layout 4 4 = [x.a, x.b, x.c, x.d] := rfl
    rw [ofLayout?]
    simp only [hport, haddress]
    exact if_pos ⟨rfl, rfl, rfl⟩
  | v6 x p flow scope =>
    have hport : (numberOf (field (v6 x p flow scope).layout 2 2).reverse).toUInt16 = p := by
      have hfield : field (v6 x p flow scope).layout 2 2 = bigEndian 2 p.toNat := rfl
      rw [hfield, numberOf_bigEndian p.toNat_lt]
      exact UInt16.ofNat_toNat
    have hflow : (numberOf (field (v6 x p flow scope).layout 4 4).reverse).toUInt32 = flow := by
      have hfield : field (v6 x p flow scope).layout 4 4 = bigEndian 4 flow.toNat := rfl
      rw [hfield, numberOf_bigEndian flow.toNat_lt]
      exact UInt32.ofNat_toNat
    have haddress : field (v6 x p flow scope).layout 8 16 = x.octets := by
      rw [layout, List.append_assoc]
      exact field_append _ rfl x.length_octets
    have hscope : (numberOf (field (v6 x p flow scope).layout 24 4)).toUInt32 = scope := by
      have hfield : field (v6 x p flow scope).layout 24 4 = littleEndian 4 scope.toNat := by
        rw [layout, ← List.append_nil (littleEndian 4 scope.toNat)]
        exact field_append _ (by simp [length_bigEndian, length_littleEndian, x.length_octets])
          (length_littleEndian 4 _)
      rw [hfield, numberOf_littleEndian scope.toNat_lt]
      exact UInt32.ofNat_toNat
    have hlength : (v6 x p flow scope).layout.length = 28 := by
      simp [layout, length_bigEndian, length_littleEndian, x.length_octets]
    rw [ofLayout?]
    simp only [hport, hflow, haddress, hscope, hlength, V6.ofGroups?_octets]
    rfl

end Endpoint

end HostLookup
