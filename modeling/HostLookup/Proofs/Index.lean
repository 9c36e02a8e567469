import Mathlib.Logic.Equiv.Basic
import Mathlib.Tactic.Choose
import HostLookup.Proofs.Listing
import HostLookup.Proofs.TokenOrder

/-!
# The index has what the content lists

The entries of `Index.build` are one to one with the names that the content
lists, and they are in strict order: by name first, then by where the name
stands. The sort is stable, so the entries of one name are its mentions in file
order (`filter_mergeSort`), and both orders come from that.
-/

namespace HostLookup.Hosts

open Bytes

/-! ## The sort -/

/-- Elements that are in order among themselves keep their places among themselves. -/
theorem filter_mergeSort {α : Type} {le : α → α → Bool} {p : α → Bool} {l : List α}
    (trans : ∀ a b c, le a b = true → le b c = true → le a c = true)
    (total : ∀ a b, (le a b || le b a) = true)
    (h : (l.filter p).Pairwise fun a b => le a b = true) :
    (l.mergeSort le).filter p = l.filter p := by
  have hsub : (l.filter p).Sublist ((l.mergeSort le).filter p) := by
    have := (List.sublist_mergeSort trans total h List.filter_sublist).filter p
    simpa only [List.filter_filter, Bool.and_self] using this
  exact (hsub.eq_of_length ((List.mergeSort_perm l le).filter p).length_eq.symm).symm

namespace Mention

def entry (m : Mention) : Entry := ⟨m.address, m.name.offset⟩

/-- The order of the index. -/
def le (m n : Mention) : Bool := compareTokens m.name.text n.name.text != .gt

theorem le_iff {m n : Mention} : m.le n = true ↔ m.name.text ≤ n.name.text :=
  compareTokens_ne_gt_iff

theorem le_trans (l m n : Mention) (h : l.le m = true) (h' : m.le n = true) : l.le n = true :=
  le_iff.mpr (Std.le_trans (le_iff.mp h) (le_iff.mp h'))

theorem le_total (m n : Mention) : (m.le n || n.le m) = true := by
  rw [Bool.or_eq_true, le_iff, le_iff]
  exact Std.le_total

end Mention

section

variable {data name : Bytes} {e : Entry}

def sortedMentions (data : Bytes) : List Mention := (mentions data).mergeSort Mention.le

theorem toList_build (data : Bytes) :
    (Index.build data).toList = (sortedMentions data).map Mention.entry := rfl

theorem mem_sortedMentions {m : Mention} : m ∈ sortedMentions data ↔ m ∈ mentions data :=
  List.mem_mergeSort

theorem filter_sortedMentions (data name : Bytes) :
    ((sortedMentions data).filter fun m => m.name.text == name) =
      (mentions data).filter fun m => m.name.text == name := by
  refine filter_mergeSort Mention.le_trans Mention.le_total ?_
  refine List.pairwise_of_forall_mem_list fun m hm n hn => Mention.le_iff.mpr ?_
  have hm := eq_of_beq (List.mem_filter.mp hm).2
  have hn := eq_of_beq (List.mem_filter.mp hn).2
  rw [hm, hn]
  exact Std.le_refl _

/-- By name, and for one name by place. -/
theorem pairwise_sortedMentions (data : Bytes) :
    (sortedMentions data).Pairwise fun m n =>
      m.name.text < n.name.text ∨ m.name.text = n.name.text ∧ m.name.offset < n.name.offset := by
  rw [List.pairwise_iff_forall_sublist]
  intro m n hsub
  have hle := List.pairwise_iff_forall_sublist.mp
    (List.pairwise_mergeSort Mention.le_trans Mention.le_total (mentions data)) hsub
  rcases Std.le_iff_lt_or_eq.mp (Mention.le_iff.mp hle) with hlt | heq
  · exact .inl hlt
  · refine .inr ⟨heq, ?_⟩
    have hfile : [m, n].Sublist (mentions data) := by
      have := hsub.filter fun k => k.name.text == n.name.text
      rw [filter_sortedMentions] at this
      simp only [heq, List.filter_cons, beq_self_eq_true, if_true, List.filter_nil] at this
      exact this.trans List.filter_sublist
    exact List.pairwise_iff_forall_sublist.mp (pairwise_mentions data) hfile

end

/-! ## The entries -/

section

variable {data : Bytes} {e : Entry}

theorem mem_build : e ∈ (Index.build data).toList ↔ ∃ x : Listing, x.IsIn data ∧ e = x.entry := by
  rw [toList_build, List.mem_map]
  constructor
  · rintro ⟨m, hm, rfl⟩
    obtain ⟨x, hx, rfl⟩ := mem_mentions.mp (mem_sortedMentions.mp hm)
    exact ⟨x, hx, rfl⟩
  · rintro ⟨x, hx, rfl⟩
    exact ⟨x.mention data, mem_sortedMentions.mpr (mem_mentions.mpr ⟨x, hx, rfl⟩), rfl⟩

theorem token_of_mem_mentions {m : Mention} (h : m ∈ mentions data) :
    token data m.entry.name = m.name.text := by
  obtain ⟨x, hx, rfl⟩ := mem_mentions.mp h
  exact hx.token_name

/-- The order of the entries is strict. -/
theorem pairwise_build (data : Bytes) :
    (Index.build data).toList.Pairwise fun e f =>
      token data e.name < token data f.name ∨
        token data e.name = token data f.name ∧ e.name < f.name := by
  rw [toList_build, List.pairwise_map]
  refine (pairwise_sortedMentions data).imp_of_mem fun hm hn h => ?_
  rw [token_of_mem_mentions (mem_sortedMentions.mp hm),
    token_of_mem_mentions (mem_sortedMentions.mp hn)]
  exact h

theorem eq_of_name_build {i j : Fin (Index.build data).size}
    (h : (Index.build data)[i].name = (Index.build data)[j].name) : i = j := by
  have hpair : (Index.build data).toList.Pairwise fun e f => e.name ≠ f.name := by
    refine (pairwise_build data).imp fun hef he => ?_
    rcases hef with hlt | ⟨-, hlt⟩
    · rw [he] at hlt
      exact Std.lt_irrefl hlt
    · exact absurd he (Nat.ne_of_lt hlt)
  have hne := List.pairwise_iff_getElem.mp hpair
  rcases Nat.lt_trichotomy i j with hlt | heq | hgt
  · exact absurd h (hne i j (by simp) (by simp) hlt)
  · exact Fin.ext heq
  · exact absurd h.symm (hne j i (by simp) (by simp) hgt)

theorem then_compare_eq_lt_iff {e f : Entry} :
    (compareTokens (token data e.name) (token data f.name)).then (compare e.name f.name) = .lt ↔
      token data e.name < token data f.name ∨
        token data e.name = token data f.name ∧ e.name < f.name := by
  rw [Ordering.then_eq_lt, compareTokens_eq_lt_iff, compareTokens_eq_eq_iff, Nat.compare_eq_lt]

namespace Listing

/-- The entry has the offsets of the listing's words, and a token read there is the whole word. -/
structure IsEntry (x : Listing) (data : Bytes) (e : Entry) : Prop where
  address_eq : e.address = x.line.start + x.address.start
  name_eq : e.name = x.line.start + x.name.start
  address_lt : e.address < data.length
  name_lt : e.name < data.length
  address_token : token data e.address = x.address.of (x.line.of data)
  address_token_line : token (x.line.of data) x.address.start = x.address.of (x.line.of data)
  name_token : token data e.name = x.name.of (x.line.of data)
  name_token_line : token (x.line.of data) x.name.start = x.name.of (x.line.of data)

theorem IsIn.isEntry {x : Listing} (h : x.IsIn data) : x.IsEntry data x.entry where
  address_eq := rfl
  name_eq := rfl
  address_lt := Nat.lt_of_lt_of_le (lt_of_isLine h.line h.lists.address) h.line.stop_le
  name_lt := Nat.lt_of_lt_of_le (lt_of_isLine h.line h.lists.name) h.line.stop_le
  address_token := token_of_isLine h.line h.lists.address
  address_token_line := token_of_isRun h.lists.address.1
  name_token := token_of_isLine h.line h.lists.name
  name_token_line := token_of_isRun h.lists.name.1

end Listing

/-- A line and a later word of it that the content lists as a name. -/
abbrev Place (data : Bytes) : Type :=
  {p : Span × Span // ∃ a, (Listing.mk p.1 a p.2).IsIn data}

abbrev Place.listing (p : Place data) (a : Span) : Listing := ⟨p.1.1, a, p.1.2⟩

theorem exists_place (data : Bytes) (i : Fin (Index.build data).size) :
    ∃ p : Place data, ∃ a, (p.listing a).IsIn data ∧
      (p.listing a).entry = (Index.build data)[i] := by
  have hmem : (Index.build data)[i] ∈ (Index.build data).toList := by simp
  obtain ⟨⟨l, a, n⟩, hx, he⟩ := mem_build.mp hmem
  exact ⟨⟨(l, n), a, hx⟩, a, hx, he.symm⟩

/--
The entries of the index are one to one with the lines and later words that are
listed as names; each has the offsets of its words, and the entries are in strict
order by name, then by the offset of the name.
-/
theorem build_exact (data : Bytes) :
    (∃ place : Fin (Index.build data).size ≃ Place data,
        ∀ i, ∃ a, ((place i).listing a).IsIn data ∧
          ((place i).listing a).IsEntry data (Index.build data)[i]) ∧
      (Index.build data).toList.Pairwise fun e f =>
        (compareTokens (token data e.name) (token data f.name)).then
          (compare e.name f.name) = .lt := by
  choose place hplace using exists_place data
  have hinj : Function.Injective place := by
    intro i j hij
    obtain ⟨a, hx, he⟩ := hplace i
    obtain ⟨b, hy, he'⟩ := hplace j
    rw [hij] at hx he
    have hxy := hx.ext hy rfl rfl
    refine eq_of_name_build ?_
    rw [← he, ← he', hxy]
  have hsurj : Function.Surjective place := by
    rintro ⟨⟨l, n⟩, a, hx⟩
    obtain ⟨i, hi, he⟩ := List.mem_iff_getElem.mp (mem_build.mpr ⟨_, hx, rfl⟩)
    have hi : i < (Index.build data).size := by simpa using hi
    obtain ⟨b, hy, he'⟩ := hplace ⟨i, hi⟩
    have hname : (Listing.mk l a n).entry.name = ((place ⟨i, hi⟩).listing b).entry.name := by
      rw [he', ← he]
      rfl
    have hxy := hx.eq_of_entry_name hy hname
    rw [Listing.mk.injEq] at hxy
    exact ⟨⟨i, hi⟩, Subtype.ext (Prod.ext hxy.1.symm hxy.2.2.symm)⟩
  refine ⟨⟨Equiv.ofBijective place ⟨hinj, hsurj⟩, fun i => ?_⟩, ?_⟩
  · obtain ⟨a, hx, he⟩ := hplace i
    exact ⟨a, hx, he ▸ hx.isEntry⟩
  · exact (pairwise_build data).imp then_compare_eq_lt_iff.mpr

end

end HostLookup.Hosts
