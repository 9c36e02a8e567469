import HostLookup.Hosts.Snapshot
import HostLookup.Proofs.Index

/-!
# Looking a name up

`lowerBound` keeps what is before its bounds before the name and the rest not
before it (`lowerBound_spec`), so on sorted entries `search` gives the first one
of a name. In a snapshot that is the first mention in file order, since the
index keeps the mentions of one name in that order (`lookup_eq_find?`).
-/

namespace HostLookup.Hosts

open Bytes

/-! ## Search -/

namespace Index

/-- The entries stand in the order of their names. -/
def IsSorted (data : Bytes) (entries : Index) : Prop :=
  entries.toList.Pairwise fun e f => token data e.name ≤ token data f.name

section

variable {data name : Bytes} {entries : Index}

theorem IsSorted.le (hs : IsSorted data entries) {i j : Nat} (hi : i < entries.size)
    (hj : j < entries.size) (hij : i ≤ j) :
    token data entries[i].name ≤ token data entries[j].name := by
  rcases Nat.eq_or_lt_of_le hij with rfl | hlt
  · exact Std.le_refl _
  · have := List.pairwise_iff_getElem.mp hs i j (by simpa using hi) (by simpa using hj) hlt
    simpa using this

/-- What is left of the result is before the name, and the rest is not. -/
theorem lowerBound_spec (name : Bytes) (hs : IsSorted data entries) {lo hi : Nat} (hle : lo ≤ hi)
    (h : hi ≤ entries.size)
    (hlo : ∀ i (hi : i < entries.size), i < lo → token data entries[i].name < name)
    (hhi : ∀ i (_ : i < entries.size), hi ≤ i → name ≤ token data entries[i].name) :
    lowerBound data entries name lo hi h ≤ hi ∧
      (∀ i (_ : i < entries.size), i < lowerBound data entries name lo hi h →
        token data entries[i].name < name) ∧
      ∀ i (_ : i < entries.size), lowerBound data entries name lo hi h ≤ i →
        name ≤ token data entries[i].name := by
  fun_induction lowerBound data entries name lo hi h with
  | case1 lo hi h hlt mid hmid hc ih =>
    refine ih (by omega) (fun i hi him => ?_) hhi
    exact Std.lt_of_le_of_lt (hs.le hi hmid (by omega)) (compareTokens_eq_lt_iff.mp hc)
  | case2 lo hi h hlt mid hmid hc ih =>
    have hge : name ≤ token data entries[mid].name :=
      Std.not_lt.mp fun hlt => hc (compareTokens_eq_lt_iff.mpr hlt)
    obtain ⟨h1, h2, h3⟩ := ih (by omega) hlo fun i hi hmi => Std.le_trans hge (hs.le hmid hi hmi)
    exact ⟨by omega, h2, h3⟩
  | case3 lo hi h hlt =>
    exact ⟨hle, hlo, fun i hi hli => hhi i hi (by omega)⟩

theorem search_eq_find? (hs : IsSorted data entries) :
    search data entries name = entries.toList.find? fun e => token data e.name == name := by
  obtain ⟨hle, hbefore, hafter⟩ := lowerBound_spec name hs (Nat.zero_le _)
    (Nat.le_refl _) (fun _ _ h => absurd h (Nat.not_lt_zero _))
    fun _ hi h => absurd hi (Nat.not_lt.mpr h)
  unfold search
  generalize lowerBound data entries name 0 entries.size (Nat.le_refl _) = k at hle hbefore hafter
  have hne : ∀ i (hi : i < entries.size), i < k → (token data entries[i].name == name) = false := by
    intro i hi hik
    rw [beq_eq_false_iff_ne]
    intro heq
    have hlt := hbefore i hi hik
    rw [heq] at hlt
    exact Std.lt_irrefl hlt
  symm
  cases hf : entries[k]?.filter fun e => token data e.name == name with
  | some e =>
    obtain ⟨he, hp⟩ := Option.filter_eq_some_iff.mp hf
    obtain ⟨hk, rfl⟩ := Array.getElem?_eq_some_iff.mp he
    refine List.find?_eq_some_iff_getElem.mpr ⟨hp, k, by simpa using hk, by simp, fun j hj => ?_⟩
    rw [Array.getElem_toList, hne j (Nat.lt_trans hj hk) hj]
    rfl
  | none =>
    rw [List.find?_eq_none]
    intro e he heq
    obtain ⟨i, hi, rfl⟩ := List.mem_iff_getElem.mp he
    rw [Array.length_toList] at hi
    rw [Array.getElem_toList] at heq
    rcases Nat.lt_or_ge i k with hik | hki
    · rw [hne i hi hik] at heq
      cases heq
    · -- an entry of the name past `k` would make the one at `k` an entry of the name
      have hk := Nat.lt_of_le_of_lt hki hi
      have hki := hs.le hk hi hki
      rw [eq_of_beq heq] at hki
      have hname := Std.le_antisymm hki (hafter k hk (Nat.le_refl k))
      rw [Array.getElem?_eq_getElem hk, Option.filter_some, if_pos (beq_iff_eq.mpr hname)] at hf
      cases hf

end

end Index

/-! ## Lookup -/

section

variable {data name : Bytes}

theorem isSorted_build (data : Bytes) : Index.IsSorted data (Index.build data) := by
  refine (pairwise_build data).imp fun h => ?_
  rcases h with hlt | ⟨heq, -⟩
  · exact Std.le_of_lt hlt
  · exact Std.le_of_eq heq

/-- The search of a built index gives the first mention of the name in the file. -/
theorem search_build (data name : Bytes) :
    (Index.build data).search data name =
      ((mentions data).find? fun m => m.name.text == name).map Mention.entry := by
  rw [Index.search_eq_find? (isSorted_build data), toList_build, List.find?_map,
    ← List.head?_filter, ← List.head?_filter, ← filter_sortedMentions]
  congr 2
  refine List.filter_congr fun m hm => ?_
  rw [Function.comp_apply, token_of_mem_mentions (mem_sortedMentions.mp hm)]

theorem Listing.IsIn.plain {x : Listing} (h : x.IsIn data) :
    (x.text data).isEmpty = false ∧ (x.text data).any isBlank = false := by
  have hlen : (x.text data).length = x.name.length := Span.length_of h.lists.name.1.stop_le
  have hpos := h.lists.name.length_pos
  constructor
  · rw [List.isEmpty_eq_false_iff]
    exact List.ne_nil_of_length_pos (by omega)
  · rw [List.any_eq_false]
    intro b hb
    rw [h.lists.name.1.solid b hb]
    decide

theorem Snapshot.lookup_eq_find? (s : Snapshot) (name : Bytes) :
    s.lookup name = ((mentions s.data).find? fun m => m.name.text == name).map Mention.entry := by
  unfold lookup
  split
  · next h =>
    have : (mentions s.data).find? (fun m => m.name.text == name) = none := by
      rw [List.find?_eq_none]
      intro m hm heq
      obtain ⟨x, hx, rfl⟩ := mem_mentions.mp hm
      obtain ⟨hne, hb⟩ := hx.plain
      rw [← eq_of_beq heq] at h
      simp only [Listing.mention] at h
      rw [hne, hb] at h
      cases h
    rw [this]
    rfl
  · rw [s.entries_eq, search_build]

/--
What a scan from the front of a content gives for a name: the first listing of
it, or nothing if there is none.
-/
inductive ScanResult (data name : Bytes) : Option Entry → Prop where
  | found (x : Listing) (isIn : x.IsIn data) (text : x.text data = name)
      (first : ∀ y : Listing, y.IsIn data → y.text data = name → x.entry.name ≤ y.entry.name) :
      ScanResult data name (some x.entry)
  | missing (absent : ∀ x : Listing, x.IsIn data → x.text data ≠ name) :
      ScanResult data name none

theorem ScanResult.unique {r r' : Option Entry} (h : ScanResult data name r)
    (h' : ScanResult data name r') : r = r' := by
  cases h with
  | found x hx htext hfirst =>
    cases h' with
    | found y hy htext' hfirst' =>
      have := Nat.le_antisymm (hfirst y hy htext') (hfirst' x hx htext)
      rw [hx.eq_of_entry_name hy this]
    | missing habsent => exact absurd htext (habsent x hx)
  | missing habsent =>
    cases h' with
    | found y hy htext => exact absurd htext (habsent y hy)
    | missing => rfl

theorem scanResult_find? (data name : Bytes) :
    ScanResult data name
      (((mentions data).find? fun m => m.name.text == name).map Mention.entry) := by
  cases hf : (mentions data).find? fun m => m.name.text == name with
  | none =>
    refine .missing fun x hx htext => ?_
    have := List.find?_eq_none.mp hf _ (mem_mentions.mpr ⟨x, hx, rfl⟩)
    exact this (beq_iff_eq.mpr htext)
  | some m =>
    obtain ⟨hp, as, bs, hsplit, has⟩ := List.find?_eq_some_iff_append.mp hf
    have hm : m ∈ mentions data := hsplit ▸ List.mem_append_right _ List.mem_cons_self
    obtain ⟨x, hx, rfl⟩ := mem_mentions.mp hm
    refine .found x hx (eq_of_beq hp) fun y hy htext => ?_
    have hy' : y.mention data ∈ mentions data := mem_mentions.mpr ⟨y, hy, rfl⟩
    have hpair := pairwise_mentions data
    rw [hsplit] at hy' hpair
    rcases List.mem_append.mp hy' with hin | hin
    · have := has _ hin
      rw [Listing.mention, htext, beq_self_eq_true] at this
      cases this
    · rcases List.mem_cons.mp hin with heq | hin
      · obtain rfl := hx.eq_of_entry_name hy (congrArg (·.name.offset) heq).symm
        exact Nat.le_refl _
      · have := (List.pairwise_cons.mp (List.pairwise_append.mp hpair).2.1).1 _ hin
        exact Nat.le_of_lt this

/--
Looking a name up gives what a scan of the content gives; the entry has the name
as its name token and the first word of the name's line as its address token.
-/
theorem Snapshot.lookup_eq_scan (s : Snapshot) (name : Bytes) :
    (∀ r, s.lookup name = r ↔ ScanResult s.data name r) ∧
      ∀ e, s.lookup name = some e → s.nameToken e = name ∧
        ∃ x : Listing, x.IsIn s.data ∧ x.IsEntry s.data e ∧
          s.addressToken e = x.address.of (x.line.of s.data) := by
  have hscan : ScanResult s.data name (s.lookup name) := by
    rw [s.lookup_eq_find?]
    exact scanResult_find? s.data name
  refine ⟨fun r => ⟨fun h => h ▸ hscan, fun h => hscan.unique h⟩, fun e he => ?_⟩
  rw [he] at hscan
  cases hscan with
  | found x hx htext =>
    exact ⟨hx.isEntry.name_token.trans htext, x, hx, hx.isEntry, hx.isEntry.address_token⟩

end

end HostLookup.Hosts
