import HostLookup.Proofs.Arguments
import HostLookup.Proofs.CanonicalText
import HostLookup.Proofs.Digits

/-!
# Address literals

`Literal` says how an address may be written: four octets in one way only, groups
with zeros in front and in either case of letters, any run of zero groups as
`::`, and the last two groups as four octets. Exactly these texts are read
(`ofText?_eq_some_iff`), each as one address, whose canonical text is one of
them. A text of groups has a colon and one of four octets has none.
-/

namespace HostLookup

open Bytes

/-- A group in at most four digits of either case, zeros in front allowed. -/
structure GroupText (s : Bytes) (g : UInt16) : Prop where
  length_le : s.length ≤ 4
  digits : ∃ zeros, s.map lowerCase = List.replicate zeros 48 ++ Hex.ofNat g.toNat

/-- Groups with a colon between each two; four octets may stand for the last two of them where that
is allowed. -/
inductive GroupsLiteral (octetsAllowed : Bool) : Bytes → List UInt16 → Prop where
  | group {s : Bytes} {g : UInt16} (group : GroupText s g) : GroupsLiteral octetsAllowed s [g]
  | octets (x : V4) (allowed : octetsAllowed = true) :
      GroupsLiteral octetsAllowed x.text [groupOf x.a x.b, groupOf x.c x.d]
  | more {s t : Bytes} {g : UInt16} {gs : List UInt16} (group : GroupText s g)
      (rest : GroupsLiteral octetsAllowed t gs) :
      GroupsLiteral octetsAllowed (s ++ [colon] ++ t) (g :: gs)

/-- What stands on one side of a double colon, which may be nothing. -/
def SideLiteral (octetsAllowed : Bool) (s : Bytes) (gs : List UInt16) : Prop :=
  s = [] ∧ gs = [] ∨ GroupsLiteral octetsAllowed s gs

/-- The texts of an address. -/
inductive Literal : Bytes → Address → Prop where
  | octets (x : V4) : Literal x.text (.v4 x)
  | groups {s : Bytes} {x : V6} (groups : GroupsLiteral true s x.groups) : Literal s (.v6 x)
  | compressed {before after : Bytes} {x : V6} {front back : List UInt16} {n : Nat}
      (left : SideLiteral false before front) (right : SideLiteral true after back) (some : n ≠ 0)
      (groups : x.groups = front ++ List.replicate n 0 ++ back) :
      Literal (before ++ ascii "::" ++ after) (.v6 x)

/-! ## Octets -/

theorem octetOfText?_eq_some_iff {s : Bytes} {o : UInt8} :
    octetOfText? s = some o ↔ s = Decimal.ofNat o.toNat := by
  constructor
  · intro h
    unfold octetOfText? at h
    split at h
    · next hfront =>
      obtain ⟨n, hn, rfl⟩ := Option.map_eq_some_iff.mp h
      obtain ⟨digits, rfl, hlimit⟩ := Decimal.natBelow?_eq_some_iff.mp hn
      rw [show (Decimal.value s).toUInt8.toNat = Decimal.value s from
        UInt8.toNat_ofNat_of_lt hlimit]
      apply Decimal.eq_ofNat_value digits
      simpa using (Bool.and_eq_true_iff.mp hfront).2
    · cases h
  · rintro rfl
    exact octetOfText?_ofNat o

theorem eq_map_of_map_octetOfText? {pieces : List Bytes} {octets : List UInt8}
    (h : pieces.map octetOfText? = octets.map some) :
    pieces = octets.map fun o => Decimal.ofNat o.toNat := by
  induction pieces generalizing octets with
  | nil =>
    cases octets with
    | nil => rfl
    | cons => cases h
  | cons piece pieces ih =>
    cases octets with
    | nil => cases h
    | cons o octets =>
      obtain ⟨hpiece, hpieces⟩ := List.cons.inj h
      rw [List.map_cons, ← ih hpieces, ← octetOfText?_eq_some_iff.mp hpiece]

/-- Four octets are written in one way only. -/
theorem V4.ofText?_eq_some_iff {s : Bytes} {x : V4} : ofText? s = some x ↔ s = x.text := by
  constructor
  · intro h
    unfold ofText? at h
    split at h
    · next a b c d hpieces =>
      obtain rfl := Option.some.inj h
      have hsplit : splitOn point s = [a, b, c, d].map fun o => Decimal.ofNat o.toNat :=
        eq_map_of_map_octetOfText? hpieces
      rw [← @List.intercalate_splitOn _ s _ _ point, hsplit]
      rfl
    · cases h
  · rintro rfl
    exact x.ofText?_text

/-! ## Groups -/

section

variable {s t : Bytes} {g : UInt16} {gs : List UInt16} {octetsAllowed : Bool}
  {pieces : List Bytes}

theorem groupOfText?_eq_some_iff : groupOfText? s = some g ↔ GroupText s g := by
  unfold groupOfText?
  constructor
  · intro h
    split at h
    · next hs =>
      obtain ⟨n, hn, rfl⟩ := Option.map_eq_some_iff.mp h
      obtain ⟨hne, hvalue, hlimit⟩ := (natBelow?_eq_some_iff (by decide)).mp hn
      refine ⟨hs, ?_⟩
      rw [show n.toUInt16.toNat = n from UInt16.toNat_ofNat_of_lt hlimit]
      exact hvalue.exists_zeros (by decide) hne
    · cases h
  · rintro ⟨hlength, hdigits⟩
    obtain ⟨hne, hvalue⟩ := (hasValue_iff (by decide) (by decide)).mpr hdigits
    rw [if_pos hlength, (natBelow?_eq_some_iff (by decide)).mpr ⟨hne, hvalue, g.toNat_lt⟩]
    exact congrArg some UInt16.ofNat_toNat

theorem GroupText.isPiece (h : GroupText s g) : s ≠ [] ∧ colon ∉ s ∧ point ∉ s := by
  have hread := groupOfText?_eq_some_iff.mpr h
  unfold groupOfText? at hread
  split at hread
  · obtain ⟨n, hn, -⟩ := Option.map_eq_some_iff.mp hread
    obtain ⟨hne, hvalue, -⟩ := (natBelow?_eq_some_iff (by decide)).mp hn
    have hdigits := hvalue.digit?_ne_none
    exact ⟨hne, fun hc => hdigits colon hc (by decide), fun hp => hdigits point hp (by decide)⟩
  · cases hread

theorem V4.text_isPiece (x : V4) : x.text ≠ [] ∧ colon ∉ x.text := by
  have hcolon : colon ∉ x.text := fun h => by
    have := x.ofText?_text
    rw [V4.ofText?_of_colon h] at this
    cases this
  refine ⟨fun h => ?_, hcolon⟩
  have := x.ofText?_text
  rw [h] at this
  cases this

theorem GroupsLiteral.exists_pieces (h : GroupsLiteral octetsAllowed s gs) :
    ∃ pieces, pieces ≠ [] ∧ s = [colon].intercalate pieces ∧
      (∀ piece ∈ pieces, piece ≠ [] ∧ colon ∉ piece) ∧
      groupsOfPieces? octetsAllowed pieces = some gs := by
  induction h with
  | @group s g group =>
    obtain ⟨hne, hcolon, hpoint⟩ := group.isPiece
    refine ⟨[s], List.cons_ne_nil _ _, List.intercalate_singleton.symm,
      List.forall_mem_singleton.mpr ⟨hne, hcolon⟩, ?_⟩
    have hnone : (if octetsAllowed then V4.ofText? s else none) = none := by
      rw [V4.ofText?_of_solid hpoint, ite_self]
    rw [groupsOfPieces?, hnone, groupOfText?_eq_some_iff.mpr group]
    rfl
  | octets x allowed =>
    refine ⟨[x.text], List.cons_ne_nil _ _, List.intercalate_singleton.symm,
      List.forall_mem_singleton.mpr x.text_isPiece, ?_⟩
    rw [groupsOfPieces?, if_pos allowed, x.ofText?_text]
  | @more s t g gs group rest ih =>
    obtain ⟨hne, hcolon, -⟩ := group.isPiece
    obtain ⟨pieces, hpieces, rfl, hplain, hread⟩ := ih
    refine ⟨s :: pieces, List.cons_ne_nil _ _, (List.intercalate_cons_of_ne_nil hpieces).symm,
      List.forall_mem_cons.mpr ⟨⟨hne, hcolon⟩, hplain⟩, ?_⟩
    rw [groupsOfPieces?, groupOfText?_eq_some_iff.mpr group, hread]
    · rfl
    · exact hpieces

theorem groupsLiteral_of_pieces (h : groupsOfPieces? octetsAllowed pieces = some gs)
    (hne : pieces ≠ []) : GroupsLiteral octetsAllowed ([colon].intercalate pieces) gs := by
  fun_induction groupsOfPieces? octetsAllowed pieces generalizing gs with
  | case1 => exact absurd rfl hne
  | case2 last x hx =>
    obtain rfl := Option.some.inj h
    split at hx
    · next allowed =>
      rw [List.intercalate_singleton, V4.ofText?_eq_some_iff.mp hx]
      exact .octets x allowed
    · cases hx
  | case3 last _ =>
    obtain ⟨g, hg, rfl⟩ := Option.map_eq_some_iff.mp h
    rw [List.intercalate_singleton]
    exact .group (groupOfText?_eq_some_iff.mp hg)
  | case4 piece pieces hpieces ih =>
    obtain ⟨g, hg, hrest⟩ := Option.bind_eq_some_iff.mp h
    obtain ⟨gs', hgs', rfl⟩ := Option.map_eq_some_iff.mp hrest
    rw [List.intercalate_cons_of_ne_nil hpieces]
    exact .more (groupOfText?_eq_some_iff.mp hg) (ih hgs' hpieces)

theorem groupsOfText?_eq_some_iff :
    groupsOfText? octetsAllowed s = some gs ↔ SideLiteral octetsAllowed s gs := by
  unfold groupsOfText? SideLiteral
  constructor
  · intro h
    split at h
    · next hempty => exact .inl ⟨List.isEmpty_iff.mp hempty, (Option.some.inj h).symm⟩
    · right
      rw [← @List.intercalate_splitOn _ s _ _ colon]
      exact groupsLiteral_of_pieces h (List.splitOn_ne_nil colon s)
  · rintro (⟨rfl, rfl⟩ | h)
    · rfl
    · obtain ⟨pieces, hne, rfl, hplain, hread⟩ := h.exists_pieces
      have hs : [colon].intercalate pieces ≠ [] :=
        intercalate_ne_nil hne fun piece hp => (hplain piece hp).1
      rw [if_neg (by simpa using hs), List.splitOn_intercalate colon
        (fun piece hp => (hplain piece hp).2) hne, hread]

theorem SideLiteral.cutDoubleColon? (h : SideLiteral octetsAllowed s gs) (t : Bytes) :
    cutDoubleColon? (s ++ t) =
      (HostLookup.cutDoubleColon? t).map fun (before, after) => (s ++ before, after) := by
  rcases h with ⟨rfl, -⟩ | h
  · simp
  · obtain ⟨pieces, -, rfl, hplain, -⟩ := h.exists_pieces
    exact cutDoubleColon?_intercalate hplain

end

/-! ## Addresses -/

theorem colon_mem_of_literal {s : Bytes} {x : V6} (h : Literal s (.v6 x)) : colon ∈ s := by
  cases h with
  | groups groups =>
    have hlength := x.length_groups
    generalize x.groups = gs at groups hlength
    cases groups with
    | group | octets => cases hlength
    | more => simp
  | compressed => exact List.mem_append_left _ (List.mem_append_right _ List.mem_cons_self)

theorem V6.ofGroups?_eq_some_iff {gs : List UInt16} {x : V6} :
    ofGroups? gs = some x ↔ x.groups = gs := by
  constructor
  · intro h
    unfold ofGroups? at h
    split at h
    · rw [← Option.some.inj h]
    · cases h
  · rintro rfl
    exact x.ofGroups?_groups

/-- The texts of eight groups are those that are read. -/
theorem V6.ofText?_eq_some_iff {s : Bytes} {x : V6} : ofText? s = some x ↔ Literal s (.v6 x) := by
  constructor
  · intro h
    unfold ofText? at h
    split at h
    · obtain ⟨gs, hgs, hx⟩ := Option.bind_eq_some_iff.mp h
      obtain rfl := ofGroups?_eq_some_iff.mp hx
      rcases groupsOfText?_eq_some_iff.mp hgs with ⟨-, hnil⟩ | hgroups
      · have hlength := x.length_groups
        rw [hnil] at hlength
        cases hlength
      · exact .groups hgroups
    · next before after hcut =>
      split at h
      · next front back hfront hback =>
        split at h
        · next hlength =>
          have hs : s = before ++ ascii "::" ++ after := by
            rw [eq_of_cutDoubleColon? hcut, List.append_assoc]
            rfl
          rw [hs]
          refine .compressed (groupsOfText?_eq_some_iff.mp hfront)
            (groupsOfText?_eq_some_iff.mp hback) ?_ (ofGroups?_eq_some_iff.mp h)
          omega
        · cases h
      · cases h
  · intro h
    cases h with
    | groups groups =>
      have hcut := (show SideLiteral true s x.groups from .inr groups).cutDoubleColon? []
      rw [List.append_nil] at hcut
      have hread := groupsOfText?_eq_some_iff.mpr (.inr groups)
      rw [ofText?, hcut]
      simp only [HostLookup.cutDoubleColon?, Option.map_none, hread, Option.bind_some,
        x.ofGroups?_groups]
    | @compressed before after _ front back n left right some groups =>
      have hcut := left.cutDoubleColon? (ascii "::" ++ after)
      rw [← List.append_assoc] at hcut
      refine ofText?_of_cut hcut ?_ (groupsOfText?_eq_some_iff.mpr right) some groups
      rw [List.append_nil]
      exact groupsOfText?_eq_some_iff.mpr left

namespace Address

/-- Exactly the literals of an address are read as it. -/
theorem ofText?_eq_some_iff {s : Bytes} {x : Address} : ofText? s = some x ↔ Literal s x := by
  unfold ofText?
  constructor
  · intro h
    split at h
    · next y hy =>
      rw [V4.ofText?_eq_some_iff.mp hy, ← Option.some.inj h]
      exact .octets y
    · obtain ⟨y, hy, rfl⟩ := Option.map_eq_some_iff.mp h
      exact V6.ofText?_eq_some_iff.mp hy
  · intro h
    cases x with
    | v4 x =>
      cases h
      rw [x.ofText?_text]
    | v6 x =>
      rw [V4.ofText?_of_colon (colon_mem_of_literal h), V6.ofText?_eq_some_iff.mpr h]
      rfl

theorem exists_octets {raw : Bytes} (h : raw.length = 4 ∨ raw.length = 16) :
    ∃ x : Address, x.octets = raw ∧ (Family.ofAddress x).addressLength? = some raw.length := by
  rcases h with h | h
  · obtain ⟨x, hx⟩ := V4.exists_octets h
    exact ⟨.v4 x, hx, by rw [h]; rfl⟩
  · obtain ⟨x, hx⟩ := V6.exists_octets h
    exact ⟨.v6 x, hx, by rw [h]; rfl⟩

theorem ofText?_v4_or_v6 (s : Bytes) : V4.ofText? s = none ∨ V6.ofText? s = none := by
  by_cases hcolon : colon ∈ s
  · exact .inl (V4.ofText?_of_colon hcolon)
  · right
    apply Option.eq_none_iff_forall_ne_some.mpr
    intro x hx
    exact hcolon (colon_mem_of_literal (V6.ofText?_eq_some_iff.mp hx))

/--
The text of four or sixteen octets is the canonical one of an address of these octets, and of no
others. The texts that are read are the literals, each literal has a canonical text for the same
address, and no text is read as an address of both kinds.
-/
theorem texts_read_back :
    (∀ raw : Bytes, raw.length = 4 ∨ raw.length = 16 →
      ∃ x, ofText? (Request.addressText raw) = some x ∧ x.octets = raw ∧
        (Family.ofAddress x).addressLength? = some raw.length ∧
        CanonicalText x (Request.addressText raw)) ∧
    (∀ raw raw' : Bytes, raw.length = 4 ∨ raw.length = 16 → raw'.length = 4 ∨ raw'.length = 16 →
      Request.addressText raw = Request.addressText raw' → raw = raw') ∧
    (∀ s x, ofText? s = some x ↔ Literal s x) ∧
    (∀ s x, ofText? s = some x → ∃ t, CanonicalText x t ∧ x.text = t ∧ ofText? t = some x) ∧
    ∀ s, V4.ofText? s = none ∨ V6.ofText? s = none := by
  refine ⟨?_, ?_, fun s x => ofText?_eq_some_iff, fun s x _ => ?_, ofText?_v4_or_v6⟩
  · intro raw h
    obtain ⟨x, rfl, hfamily⟩ := exists_octets h
    rw [Request.addressText_octets]
    exact ⟨x, x.ofText?_text, rfl, hfamily, canonicalText_text x⟩
  · intro raw raw' h h' htext
    obtain ⟨x, rfl, -⟩ := exists_octets h
    obtain ⟨y, rfl, -⟩ := exists_octets h'
    rw [Request.addressText_octets, Request.addressText_octets] at htext
    have hread := x.ofText?_text
    rw [htext, y.ofText?_text] at hread
    rw [Option.some.inj hread]
  · exact ⟨_, canonicalText_text x, rfl, x.ofText?_text⟩

def mappedOctets : Bytes := List.replicate 10 0 ++ [255, 255, 192, 0, 2, 1]

def twoRuns : Address := .v6 ⟨[0x2001, 0xdb8, 0, 0, 0xa, 0, 0x102, 0x304], rfl⟩

theorem mixedTexts_read_back :
    (∃ x, ofText? (ascii "::ffff:192.0.2.1") = some x ∧ x.octets = mappedOctets ∧
        (Family.ofAddress x).addressLength? = some 16) ∧
      ofText? (ascii "2001:DB8:0:0:0a::1.2.3.4") = some twoRuns ∧
      CanonicalText twoRuns (ascii "2001:db8::a:0:102:304") ∧
      ofText? (ascii "2001:db8::a:0:102:304") = some twoRuns := by
  obtain ⟨octets, -, -, again, -⟩ := texts_read_back
  obtain ⟨x, hx, hoctets, hlength, -⟩ := octets mappedOctets (.inr rfl)
  have hmapped : Request.addressText mappedOctets = ascii "::ffff:192.0.2.1" := by decide +kernel
  have hread : ofText? (ascii "2001:DB8:0:0:0a::1.2.3.4") = some twoRuns := by decide +kernel
  have htext : twoRuns.text = ascii "2001:db8::a:0:102:304" := by decide +kernel
  obtain ⟨t, canonical, ht, hagain⟩ := again _ _ hread
  obtain rfl := ht.symm.trans htext
  exact ⟨⟨x, hmapped ▸ hx, hoctets, hlength⟩, hread, canonical, hagain⟩

end Address

end HostLookup
