import HostLookup.Address.Literal
import HostLookup.Proofs.Run
import HostLookup.Proofs.Texts

/-!
# Reading addresses back

The canonical text of an address is a literal of that address and of no other
(`Address.ofText?_text`). A text of four octets has no colon and one of groups
has nothing but hexadecimal digits between its colons, so the two kinds do not
meet. In a text with `::` the groups on either side are read apart, and the
zeros between them are what is missing to eight.
-/

namespace HostLookup

open Bytes

/-! ## Pieces -/

namespace Bytes

theorem intercalate_ne_nil {sep : Bytes} {pieces : List Bytes} (hne : pieces ≠ [])
    (h : ∀ piece ∈ pieces, piece ≠ []) : sep.intercalate pieces ≠ [] := by
  obtain ⟨piece, rest, rfl⟩ := List.exists_cons_of_ne_nil hne
  have hpiece := h piece List.mem_cons_self
  cases rest with
  | nil => rwa [List.intercalate_singleton]
  | cons next rest =>
    rw [List.intercalate_cons_cons, List.append_assoc]
    exact List.append_ne_nil_of_left_ne_nil hpiece _

end Bytes

/-! ## Octets -/

theorem octetOfText?_ofNat (o : UInt8) : octetOfText? (Decimal.ofNat o.toNat) = some o := by
  have ho : o.toNat < 256 := o.toNat_lt
  have hlength : (Decimal.ofNat o.toNat).length ≤ 3 :=
    length_digits_le (by decide) (by decide) (by omega)
  have hhead : (Decimal.ofNat o.toNat).length = 1 ∨ (Decimal.ofNat o.toNat).head? ≠ some 48 := by
    by_cases h0 : o.toNat = 0
    · left
      rw [h0, Decimal.ofNat, digits_of_lt (by decide)]
      rfl
    · exact .inr (head?_digits_ne (by decide) (by decide) h0)
  rw [octetOfText?, if_pos (by simpa using ⟨hlength, hhead⟩), Decimal.ofNat,
    natBelow?_digits (by decide) (by decide) ho]
  exact congrArg some UInt8.ofNat_toNat

theorem isDigit_of_octetOfText? {s : Bytes} (h : octetOfText? s ≠ none) :
    ∀ b ∈ s, isDigit b = true := by
  rw [octetOfText?] at h
  split at h
  · obtain ⟨o, ho⟩ := Option.ne_none_iff_exists'.mp h
    obtain ⟨n, hn, -⟩ := Option.map_eq_some_iff.mp ho
    exact (Decimal.natBelow?_eq_some_iff.mp hn).1.2
  · exact absurd rfl h

namespace V4

variable {s : Bytes}

theorem ofText?_text (x : V4) : ofText? x.text = some x := by
  have hpieces : splitOn point x.text = x.octets.map fun o => Decimal.ofNat o.toNat := by
    refine List.splitOn_intercalate point (fun piece h => ?_) (by simp [octets])
    obtain ⟨o, -, rfl⟩ := List.mem_map.mp h
    exact Decimal.notMem_ofNat (by decide) _
  rw [ofText?, hpieces]
  simp only [octets, List.map_cons, List.map_nil, octetOfText?_ofNat]

theorem isDigit_of_ofText? {x : V4} (h : ofText? s = some x) :
    ∀ b ∈ s, b = point ∨ isDigit b = true := by
  rw [ofText?] at h
  split at h
  · next a b c d hpieces =>
    have hall : ∀ piece ∈ splitOn point s, octetOfText? piece ≠ none := by
      intro piece hp hnone
      have hmem := List.mem_map_of_mem (f := octetOfText?) hp
      rw [hpieces, hnone] at hmem
      simp at hmem
    intro b hb
    rw [← @List.intercalate_splitOn _ s _ _ point] at hb
    rcases mem_intercalate hb with hb | ⟨piece, hp, hb⟩
    · exact .inl (List.mem_singleton.mp hb)
    · exact .inr (isDigit_of_octetOfText? (hall piece hp) b hb)
  · cases h

theorem ofText?_of_colon (h : colon ∈ s) : ofText? s = none := by
  cases hx : ofText? s with
  | none => rfl
  | some x => rcases isDigit_of_ofText? hx colon h with hc | hc <;> cases hc

theorem ofText?_of_solid (h : point ∉ s) : ofText? s = none := by
  rw [ofText?, List.splitOn_eq_singleton h]
  split
  · next hpieces => cases (List.cons.inj hpieces).2
  · rfl

end V4

/-! ## Groups -/

theorem groupOfText?_ofNat (g : UInt16) : groupOfText? (Hex.ofNat g.toNat) = some g := by
  have hlength : (Hex.ofNat g.toNat).length ≤ 4 :=
    length_digits_le (by decide) (by decide) g.toNat_lt
  rw [groupOfText?, if_pos hlength, Hex.ofNat,
    natBelow?_digits (by decide) (by decide) (show g.toNat < 65536 from g.toNat_lt)]
  exact congrArg some UInt16.ofNat_toNat

theorem groupsOfPieces?_map (octetsAllowed : Bool) (gs : List UInt16) :
    groupsOfPieces? octetsAllowed (gs.map fun g => Hex.ofNat g.toNat) = some gs := by
  induction gs with
  | nil => rfl
  | cons g gs ih =>
    cases gs with
    | nil =>
      have hnone : (if octetsAllowed then V4.ofText? (Hex.ofNat g.toNat) else none) = none := by
        rw [V4.ofText?_of_solid (Hex.notMem_ofNat rfl _), ite_self]
      rw [List.map_singleton, groupsOfPieces?, hnone, groupOfText?_ofNat]
      rfl
    | cons g' gs =>
      rw [List.map_cons, List.map_cons, groupsOfPieces?, groupOfText?_ofNat,
        ← List.map_cons (f := fun g : UInt16 => Hex.ofNat g.toNat), ih]
      · rfl
      · simp

theorem mem_groupPieces {gs : List UInt16} :
    ∀ piece ∈ gs.map (fun g => Hex.ofNat g.toNat), piece ≠ [] ∧ colon ∉ piece := by
  intro piece h
  obtain ⟨g, -, rfl⟩ := List.mem_map.mp h
  exact ⟨digits_ne_nil 16 _, Hex.notMem_ofNat rfl _⟩

theorem groupsText_ne_nil {gs : List UInt16} (h : gs ≠ []) : groupsText gs ≠ [] :=
  intercalate_ne_nil (by simpa using h) fun piece hp => (mem_groupPieces piece hp).1

theorem groupsOfText?_groupsText (octetsAllowed : Bool) (gs : List UInt16) :
    groupsOfText? octetsAllowed (groupsText gs) = some gs := by
  by_cases h : gs = []
  · rw [h]
    rfl
  · rw [groupsOfText?, if_neg (by simpa using groupsText_ne_nil h), groupsText,
      List.splitOn_intercalate colon (fun piece hp => (mem_groupPieces piece hp).2)
        (by simpa using h), groupsOfPieces?_map]

/-! ## Double colons -/

section

variable {piece t : Bytes} {pieces : List Bytes}

theorem cutDoubleColon?_append (h : colon ∉ piece) :
    cutDoubleColon? (piece ++ t) =
      (cutDoubleColon? t).map fun (before, after) => (piece ++ before, after) := by
  induction piece with
  | nil => simp
  | cons p piece ih =>
    rw [List.mem_cons, not_or] at h
    have ih := ih h.2
    rw [List.cons_append]
    cases hrest : piece ++ t with
    | nil =>
      rw [(List.append_eq_nil_iff.mp hrest).2]
      rfl
    | cons q rest =>
      rw [cutDoubleColon?, if_neg fun hp => h.1 hp.1.symm, ← hrest, ih, Option.map_map]
      rfl

/-- Pieces that are not empty have no double colon between them. -/
theorem cutDoubleColon?_intercalate (h : ∀ piece ∈ pieces, piece ≠ [] ∧ colon ∉ piece) :
    cutDoubleColon? ([colon].intercalate pieces ++ t) =
      (cutDoubleColon? t).map
        fun (before, after) => ([colon].intercalate pieces ++ before, after) := by
  induction pieces with
  | nil => simp
  | cons piece pieces ih =>
    obtain ⟨hpiece, hrest⟩ := List.forall_mem_cons.mp h
    cases pieces with
    | nil =>
      rw [List.intercalate_singleton]
      exact cutDoubleColon?_append hpiece.2
    | cons next rest =>
      obtain ⟨⟨hne, hcolon⟩, -⟩ := List.forall_mem_cons.mp hrest
      obtain ⟨b, bs, rfl⟩ := List.exists_cons_of_ne_nil hne
      have hb : b ≠ colon := fun hb => hcolon (hb ▸ List.mem_cons_self)
      -- the colon after a piece is followed by the first byte of the next one
      obtain ⟨u, hu⟩ : ∃ u, [colon].intercalate ((b :: bs) :: rest) ++ t = b :: u := by
        cases rest with
        | nil => exact ⟨_, rfl⟩
        | cons => exact ⟨_, rfl⟩
      have hcut : cutDoubleColon? (colon :: ([colon].intercalate ((b :: bs) :: rest) ++ t)) =
          (cutDoubleColon? ([colon].intercalate ((b :: bs) :: rest) ++ t)).map
            fun (before, after) => (colon :: before, after) := by
        rw [hu, cutDoubleColon?, if_neg fun h => hb h.2]
      rw [List.intercalate_cons_cons, List.append_assoc, List.append_assoc,
        cutDoubleColon?_append hpiece.2, List.singleton_append, hcut, ih hrest, Option.map_map,
        Option.map_map]
      refine congrArg (Option.map · _) (funext fun x => ?_)
      simp

end

/-! ## What a literal is made of -/

/-- A hexadecimal digit, a point or a colon. -/
def IsLiteralByte (b : UInt8) : Prop := Hex.digit? b ≠ none ∨ b = point ∨ b = colon

section

variable {s before after : Bytes} {b : UInt8}

theorem isLiteralByte_of_isDigit (h : isDigit b = true) : IsLiteralByte b := by
  refine .inl fun hnone => ?_
  rw [isDigit_of_digit?_eq_none hnone] at h
  cases h

theorem isLiteralByte_of_groupOfText? {g : UInt16} (h : groupOfText? s = some g) :
    ∀ b ∈ s, IsLiteralByte b := by
  rw [groupOfText?] at h
  split at h
  · obtain ⟨n, hn, -⟩ := Option.map_eq_some_iff.mp h
    obtain ⟨-, hvalue, -⟩ := (natBelow?_eq_some_iff (by decide)).mp hn
    exact fun b hb => .inl (hvalue.digit?_ne_none b hb)
  · cases h

theorem isLiteralByte_of_groupsOfPieces? {octetsAllowed : Bool} {pieces : List Bytes}
    {gs : List UInt16} (h : groupsOfPieces? octetsAllowed pieces = some gs) :
    ∀ piece ∈ pieces, ∀ b ∈ piece, IsLiteralByte b := by
  fun_induction groupsOfPieces? octetsAllowed pieces generalizing gs with
  | case1 => exact List.forall_mem_nil _
  | case2 last x hx =>
    refine List.forall_mem_singleton.mpr fun b hb => ?_
    split at hx
    · exact (V4.isDigit_of_ofText? hx b hb).elim (fun h => .inr (.inl h)) isLiteralByte_of_isDigit
    · cases hx
  | case3 last _ =>
    obtain ⟨g, hg, -⟩ := Option.map_eq_some_iff.mp h
    exact List.forall_mem_singleton.mpr (isLiteralByte_of_groupOfText? hg)
  | case4 piece pieces _ ih =>
    obtain ⟨g, hg, hrest⟩ := Option.bind_eq_some_iff.mp h
    obtain ⟨gs', hgs', -⟩ := Option.map_eq_some_iff.mp hrest
    exact List.forall_mem_cons.mpr ⟨isLiteralByte_of_groupOfText? hg, ih hgs'⟩

theorem isLiteralByte_of_groupsOfText? {octetsAllowed : Bool} {gs : List UInt16}
    (h : groupsOfText? octetsAllowed s = some gs) : ∀ b ∈ s, IsLiteralByte b := by
  rw [groupsOfText?] at h
  split at h
  · next hempty =>
    rw [List.isEmpty_iff.mp hempty]
    exact List.forall_mem_nil _
  · intro b hb
    rw [← @List.intercalate_splitOn _ s _ _ colon] at hb
    rcases mem_intercalate hb with hb | ⟨piece, hp, hb⟩
    · exact .inr (.inr (List.mem_singleton.mp hb))
    · exact isLiteralByte_of_groupsOfPieces? h piece hp b hb

theorem eq_of_cutDoubleColon? (h : cutDoubleColon? s = some (before, after)) :
    s = before ++ colon :: colon :: after := by
  fun_induction cutDoubleColon? s generalizing before with
  | case1 | case2 => cases h
  | case3 a b rest hcolons =>
    cases h
    rw [hcolons.1, hcolons.2]
    rfl
  | case4 a b rest _ ih =>
    obtain ⟨⟨before', after'⟩, hcut, heq⟩ := Option.map_eq_some_iff.mp h
    cases heq
    rw [ih hcut]
    rfl

theorem Address.isLiteralByte_of_ofText? {x : Address} (h : ofText? s = some x) :
    ∀ b ∈ s, IsLiteralByte b := by
  rw [ofText?] at h
  split at h
  · next y hy =>
    exact fun b hb =>
      (V4.isDigit_of_ofText? hy b hb).elim (fun h => .inr (.inl h)) isLiteralByte_of_isDigit
  · obtain ⟨y, hy, -⟩ := Option.map_eq_some_iff.mp h
    rw [V6.ofText?] at hy
    split at hy
    · obtain ⟨gs, hgs, -⟩ := Option.bind_eq_some_iff.mp hy
      exact isLiteralByte_of_groupsOfText? hgs
    · next before after hcut =>
      split at hy
      · next front back hfront hback =>
        rw [eq_of_cutDoubleColon? hcut]
        simp only [List.forall_mem_append, List.forall_mem_cons]
        exact ⟨isLiteralByte_of_groupsOfText? hfront, .inr (.inr rfl), .inr (.inr rfl),
          isLiteralByte_of_groupsOfText? hback⟩
      · cases hy

end

/-! ## Zeros -/

theorem takeWhile_zeros (gs : List UInt16) :
    gs = List.replicate (gs.takeWhile (· == 0)).length 0 ++
      gs.drop (gs.takeWhile (· == 0)).length := by
  have hzeros : gs.takeWhile (· == 0) = List.replicate (gs.takeWhile (· == 0)).length 0 := by
    refine List.eq_replicate_iff.mpr ⟨rfl, fun g hg => ?_⟩
    simpa using List.all_eq_true.mp List.all_takeWhile g hg
  rw [← hzeros, drop_length_takeWhile, List.takeWhile_append_dropWhile]

theorem longestZeroRun_spec (start : Nat) (gs : List UInt16) :
    ∃ a n, longestZeroRun start gs = ⟨start + a, n⟩ ∧
      gs = gs.take a ++ List.replicate n 0 ++ gs.drop (a + n) := by
  induction gs generalizing start with
  | nil => exact ⟨0, 0, rfl, rfl⟩
  | cons g gs ih =>
    obtain ⟨a, n, hlater, hgs⟩ := ih (start + 1)
    rw [longestZeroRun]
    simp only [hlater]
    split
    · refine ⟨a + 1, n, by rw [Nat.add_right_comm, Nat.add_assoc], ?_⟩
      rw [List.take_succ_cons, Nat.add_right_comm, List.drop_succ_cons, List.cons_append,
        List.cons_append, ← hgs]
    · refine ⟨0, _, rfl, ?_⟩
      rw [List.take_zero, List.nil_append, Nat.zero_add]
      exact takeWhile_zeros (g :: gs)

namespace V6

theorem ofGroups?_groups (x : V6) : ofGroups? x.groups = some x := dif_pos x.length_groups

/-- The groups before and after a double colon, with zeros between them. -/
theorem ofText?_of_cut {s before after : Bytes} {front back : List UInt16} {x : V6} {n : Nat}
    (hcut : cutDoubleColon? s = some (before, after))
    (hfront : groupsOfText? false before = some front)
    (hback : groupsOfText? true after = some back) (hn : n ≠ 0)
    (hgroups : x.groups = front ++ List.replicate n 0 ++ back) : ofText? s = some x := by
  have hlength := x.length_groups
  rw [hgroups, List.length_append, List.length_append, List.length_replicate] at hlength
  have hzeros : 8 - front.length - back.length = n := by omega
  rw [ofText?, hcut]
  simp only [hfront, hback]
  rw [if_pos (by omega), hzeros, ← hgroups, ofGroups?_groups]

theorem groupsOfText?_embedded (y : V4) :
    groupsOfText? true (ascii "ffff:" ++ y.text) =
      some [0xffff, groupOf y.a y.b, groupOf y.c y.d] := by
  have hpieces : splitOn colon (ascii "ffff:" ++ y.text) = [ascii "ffff", y.text] := by
    have h : splitOn colon (ascii "ffff" ++ colon :: y.text) = _ :=
      List.splitOn_append_cons_self_of_not_mem (by decide) y.text
    rwa [List.splitOn_eq_singleton (V4.notMem_text rfl (by decide) y)] at h
  have hgroup : groupOfText? (ascii "ffff") = some 0xffff := by decide
  have hempty : (ascii "ffff:" ++ y.text).isEmpty = false := rfl
  rw [groupsOfText?, hempty, if_neg Bool.false_ne_true, hpieces, groupsOfPieces?, hgroup,
    groupsOfPieces?, if_pos rfl, V4.ofText?_text]
  · rfl
  · simp

theorem ofText?_text_of_embedded {x : V6} {inner : V4} (h : x.embedded? = some inner) :
    ofText? (ascii "::ffff:" ++ inner.text) = some x := by
  rw [embedded?] at h
  split at h
  · next hi lo hgroups =>
    cases h
    have hback := groupsOfText?_embedded ⟨(hi.toNat / 256).toUInt8, (hi.toNat % 256).toUInt8,
      (lo.toNat / 256).toUInt8, (lo.toNat % 256).toUInt8⟩
    rw [groupOf_octets, groupOf_octets] at hback
    exact ofText?_of_cut rfl rfl hback (Nat.succ_ne_zero 4) hgroups
  · cases h

theorem ofText?_text (x : V6) : ofText? x.text = some x := by
  rw [text]
  split
  · next inner hinner => exact ofText?_text_of_embedded hinner
  · simp only
    split
    · next hrun =>
      obtain ⟨a, n, hlongest, hgroups⟩ := longestZeroRun_spec 0 x.groups
      rw [Nat.zero_add] at hlongest
      rw [hlongest] at hrun ⊢
      have hcut : cutDoubleColon? (groupsText (x.groups.take a) ++ ascii "::" ++
          groupsText (x.groups.drop (a + n))) =
          some (groupsText (x.groups.take a), groupsText (x.groups.drop (a + n))) := by
        rw [groupsText, List.append_assoc, cutDoubleColon?_intercalate mem_groupPieces]
        exact congrArg some (Prod.ext (List.append_nil _) rfl)
      exact ofText?_of_cut hcut (groupsOfText?_groupsText _ _) (groupsOfText?_groupsText _ _)
        (Nat.ne_of_gt (Nat.lt_trans Nat.zero_lt_one hrun)) hgroups
    · have hcut : cutDoubleColon? (groupsText x.groups) = none := by
        have h : cutDoubleColon? (groupsText x.groups ++ []) = _ :=
          cutDoubleColon?_intercalate mem_groupPieces
        rwa [List.append_nil] at h
      rw [ofText?, hcut]
      simp only [groupsOfText?_groupsText, Option.bind_some, ofGroups?_groups]

theorem colon_mem_text (x : V6) : colon ∈ x.text := by
  have hsep : colon ∈ ascii "::" := List.mem_cons_self
  rw [text]
  split
  · exact List.mem_append_left _ List.mem_cons_self
  · simp only
    split
    · exact List.mem_append_left _ (List.mem_append_right _ hsep)
    · have hlength := x.length_groups
      rcases hgroups : x.groups with _ | ⟨g, _ | ⟨g', gs⟩⟩
      · rw [hgroups] at hlength
        cases hlength
      · rw [hgroups] at hlength
        cases hlength
      · rw [groupsText, List.map_cons, List.map_cons, List.intercalate_cons_cons]
        exact List.mem_append_left _ (List.mem_append_right _ List.mem_cons_self)

end V6

namespace Address

/-- The text of an address is read as that address. -/
theorem ofText?_text (x : Address) : ofText? x.text = some x := by
  cases x with
  | v4 x => rw [text, ofText?, x.ofText?_text]
  | v6 x => rw [text, ofText?, V4.ofText?_of_colon x.colon_mem_text, x.ofText?_text]; rfl

theorem ofOctets?_octets (x : Address) : ofOctets? x.octets = some x := by
  cases x with
  | v4 x => rfl
  | v6 x =>
    have hlength := x.length_octets
    rw [octets, ofOctets?]
    · rw [if_pos hlength, V6.ofGroups?_octets]
      rfl
    · intro a b c d h
      rw [h] at hlength
      cases hlength

end Address

end HostLookup
