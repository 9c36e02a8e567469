import HostLookup.Proofs.AddressText
import HostLookup.Proofs.Request

/-!
# Reading commands back

A line is read as the words that it lays out between its separators
(`wordsOfLine_eq_iff`), the first of them perhaps as a number.

`Request.Reads words request` has one case for each query and lists what its
words have to be. From it come the requests that words can express, the words
that make no request (`Malformed`), and the way back from a request to itself
through its arguments.
-/

namespace HostLookup

open Bytes

/-! ## Words of a line -/

namespace Command

/-- A word is not empty and has no separator. -/
def IsWord (s : Bytes) : Prop := s ≠ [] ∧ ∀ b ∈ s, isSeparator b = false

instance (s : Bytes) : Decidable (IsWord s) :=
  decidable_of_iff (s ≠ [] ∧ s.all (fun b => !isSeparator b) = true) (by simp [IsWord])

theorem wordsOfLine_eq_iff {line : Bytes} {words : List Bytes} :
    wordsOfLine line = words ↔ Spaced isSeparator words line := wordTexts_eq_iff

/-! ## Commands of a line -/

/-- The line lays out the words of the command, after a number for its sequence number or, where
that is zero and the first word is no such number, without one. -/
inductive Writes : Command → Bytes → Prop where
  | numbered {number line : Bytes} {seq : UInt32} {words : List Bytes} :
      Decimal.IsNumeral number → Decimal.value number = seq.toNat →
      Spaced isSeparator (number :: words) line → Writes ⟨seq, words⟩ line
  | unnumbered {first line : Bytes} {words : List Bytes} :
      ¬ (Decimal.IsNumeral first ∧ Decimal.value first < 2 ^ 32) →
      Spaced isSeparator (first :: words) line → Writes ⟨0, first :: words⟩ line

theorem ofLine?_eq_some_iff {command : Command} {line : Bytes} :
    ofLine? line = some command ↔ Writes command line := by
  constructor
  · intro h
    rw [ofLine?] at h
    split at h
    · cases h
    · next first rest hwords =>
      have hspaced := wordsOfLine_eq_iff.mp hwords
      split at h
      · next seq hseq =>
        cases h
        obtain ⟨hnumeral, hvalue⟩ := Decimal.uint32?_eq_some_iff.mp hseq
        exact .numbered hnumeral hvalue hspaced
      · next hseq =>
        cases h
        exact .unnumbered (Decimal.uint32?_eq_none_iff.mp hseq) hspaced
  · rintro (⟨hnumeral, hvalue, hspaced⟩ | ⟨hfirst, hspaced⟩)
    · rw [ofLine?, wordsOfLine_eq_iff.mpr hspaced]
      simp only [Decimal.uint32?_eq_some_iff.mpr ⟨hnumeral, hvalue⟩]
    · rw [ofLine?, wordsOfLine_eq_iff.mpr hspaced]
      simp only [Decimal.uint32?_eq_none_iff.mpr hfirst]

theorem isSeparator_of_isDigit {b : UInt8} (h : isDigit b = true) : isSeparator b = false := by
  unfold isDigit at h
  unfold isSeparator
  grind

theorem isWord_ofNat (n : Nat) : IsWord (Decimal.ofNat n) :=
  ⟨(Decimal.isNumeral_ofNat n).1, fun _ hb =>
    isSeparator_of_isDigit ((Decimal.isNumeral_ofNat n).2 _ hb)⟩

theorem writes_intercalate {seq : UInt32} {words : List Bytes} (h : ∀ w ∈ words, IsWord w) :
    Writes ⟨seq, words⟩ ([space].intercalate (Decimal.ofNat seq.toNat :: words)) :=
  .numbered (Decimal.isNumeral_ofNat _) (Decimal.value_ofNat _)
    (spaced_intercalate rfl (List.forall_mem_cons.mpr ⟨isWord_ofNat _, h⟩))

end Command

/-! ## Octets of address texts -/

theorem flatMap_groupsOfOctets {n : Nat} {s : Bytes} (h : s.length = 2 * n) :
    (groupsOfOctets s).flatMap groupOctets = s := by
  induction n generalizing s with
  | zero =>
    rw [List.length_eq_zero_iff.mp h]
    rfl
  | succ n ih =>
    match s with
    | hi :: lo :: rest =>
      rw [groupsOfOctets, List.flatMap_cons, groupOctets_groupOf, ih (by simp at h; omega)]
      rfl
    | [] | [_] => simp at h <;> omega

theorem V4.exists_octets {s : Bytes} (h : s.length = 4) : ∃ x : V4, x.octets = s := by
  match s with
  | [a, b, c, d] => exact ⟨⟨a, b, c, d⟩, rfl⟩

theorem V6.exists_octets {s : Bytes} (h : s.length = 16) : ∃ x : V6, x.octets = s := by
  have hs := flatMap_groupsOfOctets (n := 8) h
  have hlength := length_flatMap_groupOctets (groupsOfOctets s)
  rw [hs, h] at hlength
  exact ⟨⟨groupsOfOctets s, by omega⟩, hs⟩

namespace Request

theorem addressText_octets (x : Address) : addressText x.octets = x.text := by
  rw [addressText, Address.ofOctets?_octets]
  rfl

/-! ## What is read -/

/-- The octets of an address text, with the numbers that go with its kind. -/
inductive Fits : (length family : Int32) → Bytes → Bytes → Prop where
  | v4 {s : Bytes} {x : V4} : V4.ofText? s = some x → Fits 4 2 s x.octets
  | v6 {s : Bytes} {x : V6} : V6.ofText? s = some x → Fits 16 10 s x.octets

/-- The words of a request. -/
inductive Reads : List Bytes → Request → Prop where
  | forward {host service flags family socktype protocol : Bytes} {f a t p : Int32} :
      Decimal.Spells flags f.toInt → Decimal.Spells family a.toInt →
      Decimal.Spells socktype t.toInt → Decimal.Spells protocol p.toInt →
      Reads [ascii forwardName, host, service, flags, family, socktype, protocol]
        (.forward (optionalArgument host) (optionalArgument service) (Hints.ofNumbers f a t p))
  | byAddress {address length family octets : Bytes} {l f : Int32} :
      Decimal.Spells length l.toInt → Decimal.Spells family f.toInt → Fits l f address octets →
      Reads [ascii byAddressName, address, length, family] (.byAddress octets (.ofRaw f))
  | byName {name family : Bytes} {f : Int32} : Decimal.Spells family f.toInt →
      Reads [ascii byNameName, name, family] (.byName name (.ofRaw f))

variable {words args : List Bytes} {request : Request}

theorem addressLength?_ofRaw {f : Int32} {n : Nat} :
    (Family.ofRaw f).addressLength? = some n ↔ (f = 2 ∧ n = 4) ∨ (f = 10 ∧ n = 16) := by
  unfold Family.ofRaw
  grind [Family.addressLength?]

theorem fits_iff {l f : Int32} {s octets : Bytes} :
    Fits l f s octets ↔ ∃ n, (Family.ofRaw f).addressLength? = some n ∧ l.toInt = n ∧
      octetsOfText? (Family.ofRaw f) s = some octets := by
  constructor
  · rintro (hx | hx)
    · exact ⟨4, rfl, rfl, Option.map_eq_some_iff.mpr ⟨_, hx, rfl⟩⟩
    · exact ⟨16, rfl, rfl, Option.map_eq_some_iff.mpr ⟨_, hx, rfl⟩⟩
  · rintro ⟨n, hn, hl, hoctets⟩
    obtain ⟨rfl, rfl⟩ | ⟨rfl, rfl⟩ := addressLength?_ofRaw.mp hn
    · obtain rfl : l = 4 := Int32.toInt_inj.mp hl
      obtain ⟨x, hx, rfl⟩ := Option.map_eq_some_iff.mp hoctets
      exact .v4 hx
    · obtain rfl : l = 16 := Int32.toInt_inj.mp hl
      obtain ⟨x, hx, rfl⟩ := Option.map_eq_some_iff.mp hoctets
      exact .v6 hx

theorem reads_of_forwardOfArguments (h : forwardOfArguments args = .ok request) :
    Reads (ascii forwardName :: args) request := by
  unfold forwardOfArguments at h
  split at h
  · simp only [bind_eq_ok_iff, integerArgument_eq_ok_iff, Decimal.int32?_eq_some_iff] at h
    obtain ⟨f, hf, a, ha, t, ht, p, hp, h⟩ := h
    cases h
    exact .forward hf ha ht hp
  · cases h

theorem reads_of_byAddressOfArguments (h : byAddressOfArguments args = .ok request) :
    Reads (ascii byAddressName :: args) request := by
  unfold byAddressOfArguments at h
  split at h
  · simp only [bind_eq_ok_iff, integerArgument_eq_ok_iff, Decimal.int32?_eq_some_iff] at h
    obtain ⟨l, hl, f, hf, h⟩ := h
    split at h
    · cases h
    · next n hn =>
      split at h
      · cases h
      · next hlength =>
        split at h
        · cases h
        · next octets hoctets =>
          cases h
          exact .byAddress hl hf (fits_iff.mpr ⟨n, hn, Decidable.not_not.mp hlength, hoctets⟩)
  · cases h

theorem reads_of_byNameOfArguments (h : byNameOfArguments args = .ok request) :
    Reads (ascii byNameName :: args) request := by
  unfold byNameOfArguments at h
  split at h
  · simp only [bind_eq_ok_iff, integerArgument_eq_ok_iff, Decimal.int32?_eq_some_iff] at h
    obtain ⟨f, hf, h⟩ := h
    cases h
    exact .byName hf
  · cases h

/-- The words that are read, and as which request. -/
theorem ofArguments_eq_ok_iff : ofArguments words = .ok request ↔ Reads words request := by
  constructor
  · intro h
    unfold ofArguments at h
    split at h
    · cases h
    · split at h
      · next hname => exact hname ▸ reads_of_forwardOfArguments h
      · split at h
        · next hname => exact hname ▸ reads_of_byAddressOfArguments h
        · split at h
          · next hname => exact hname ▸ reads_of_byNameOfArguments h
          · cases h
  · intro h
    cases h with
    | forward hf ha ht hp =>
      rw [ofArguments, if_pos rfl]
      simp only [forwardOfArguments, bind_eq_ok_iff, integerArgument_eq_ok_iff,
        Decimal.int32?_eq_some_iff]
      exact ⟨_, hf, _, ha, _, ht, _, hp, rfl⟩
    | byAddress hl hf hfits =>
      obtain ⟨n, hn, hlength, hoctets⟩ := fits_iff.mp hfits
      rw [ofArguments, if_neg (by decide), if_pos rfl]
      simp only [byAddressOfArguments, bind_eq_ok_iff, integerArgument_eq_ok_iff,
        Decimal.int32?_eq_some_iff]
      refine ⟨_, hl, _, hf, ?_⟩
      rw [hn]
      simp only [ne_eq, hlength, not_true_eq_false, if_false, hoctets]
    | byName hf =>
      rw [ofArguments, if_neg (by decide), if_neg (by decide), if_pos rfl]
      simp only [byNameOfArguments, bind_eq_ok_iff, integerArgument_eq_ok_iff,
        Decimal.int32?_eq_some_iff]
      exact ⟨_, hf, rfl⟩

/-! ## Requests with arguments -/

end Request

namespace Family

/-- A family as it is read from its number. -/
def IsNormal (f : Family) : Prop := ofRaw f.raw = f

theorem isNormal_ofRaw (n : Int32) : (ofRaw n).IsNormal := by rw [IsNormal, raw_ofRaw]

end Family

/-- Hints that have numbers of their own: not all of them are -1. -/
def Hints.IsExpressible (h : Hints) : Prop :=
  h.family.IsNormal ∧ ¬ (h.flags = -1 ∧ h.family.raw = -1 ∧ h.socktype = -1 ∧ h.protocol = -1)

theorem Hints.ofNumbers_eq_some_iff {f a t p : Int32} {h : Hints} :
    ofNumbers f a t p = some h ↔ h.IsExpressible ∧
      h.flags = f ∧ h.family.raw = a ∧ h.socktype = t ∧ h.protocol = p := by
  unfold ofNumbers IsExpressible
  constructor
  · intro hsome
    split at hsome
    · cases hsome
    · next hnumbers =>
      cases hsome
      rw [Family.raw_ofRaw]
      exact ⟨⟨Family.isNormal_ofRaw a, hnumbers⟩, rfl, rfl, rfl, rfl⟩
  · rintro ⟨⟨hfamily, hnumbers⟩, rfl, rfl, rfl, rfl⟩
    rw [if_neg hnumbers, hfamily]

theorem optionalArgument_eq_some_iff {s t : Bytes} :
    optionalArgument s = some t ↔ t ≠ nullArgument ∧ s = t := by
  unfold optionalArgument
  grind

theorem optionalArgument_getD {s : Option Bytes} (h : s ≠ some nullArgument) :
    optionalArgument (s.getD nullArgument) = s := by
  cases s with
  | none => rfl
  | some s => exact if_neg fun hs => h (congrArg some hs)

namespace Request

/-- The requests that have arguments: no name is written as the argument that stands for nothing,
families are as their numbers read, and octets are those of a family that has addresses. -/
def IsExpressible : Request → Prop
  | forward host service hints =>
    host ≠ some nullArgument ∧ service ≠ some nullArgument ∧ ∀ h ∈ hints, h.IsExpressible
  | byAddress octets family =>
    (family = .inet ∧ octets.length = 4) ∨ (family = .inet6 ∧ octets.length = 16)
  | byName _ family => family.IsNormal

theorem isExpressible_of_reads (h : Reads words request) : request.IsExpressible := by
  cases h with
  | forward =>
    have null : ∀ s, optionalArgument s ≠ some nullArgument := fun s hs =>
      (optionalArgument_eq_some_iff.mp hs).1 rfl
    exact ⟨null _, null _, fun h hh => (Hints.ofNumbers_eq_some_iff.mp hh).1⟩
  | byAddress _ _ hfits =>
    cases hfits with
    | v4 => exact .inl ⟨rfl, rfl⟩
    | @v6 _ x => exact .inr ⟨rfl, x.length_octets⟩
  | byName => exact Family.isNormal_ofRaw _

theorem reads_arguments (h : request.IsExpressible) : Reads request.arguments request := by
  have number : ∀ n : Int32, Decimal.Spells (Decimal.ofInt32 n) n.toInt := fun n =>
    Decimal.spells_ofInt n.toInt
  cases request with
  | forward host service hints =>
    obtain ⟨hhost, hservice, hhints⟩ := h
    have reads : ∀ f a t p : Int32, Reads (ascii forwardName :: host.getD nullArgument ::
        service.getD nullArgument :: [f, a, t, p].map Decimal.ofInt32)
        (.forward (optionalArgument (host.getD nullArgument))
          (optionalArgument (service.getD nullArgument)) (Hints.ofNumbers f a t p)) :=
      fun f a t p => .forward (number f) (number a) (number t) (number p)
    rw [optionalArgument_getD hhost, optionalArgument_getD hservice] at reads
    cases hints with
    | none => exact reads (-1) (-1) (-1) (-1)
    | some hints =>
      have hnumbers := Hints.ofNumbers_eq_some_iff.mpr ⟨hhints hints rfl, rfl, rfl, rfl, rfl⟩
      have h := reads hints.flags hints.family.raw hints.socktype hints.protocol
      rwa [hnumbers] at h
  | byAddress octets family =>
    rcases h with ⟨rfl, hlength⟩ | ⟨rfl, hlength⟩
    · obtain ⟨x, rfl⟩ := V4.exists_octets hlength
      have htext : addressText x.octets = x.text := addressText_octets (.v4 x)
      have h : Reads _ (.byAddress x.octets (.ofRaw 2)) :=
        .byAddress (number 4) (number 2) (.v4 x.ofText?_text)
      rwa [← htext] at h
    · obtain ⟨x, rfl⟩ := V6.exists_octets hlength
      have htext : addressText x.octets = x.text := addressText_octets (.v6 x)
      have h : Reads _ (.byAddress x.octets (.ofRaw 10)) :=
        .byAddress (number 16) (number 10) (.v6 x.ofText?_text)
      rw [arguments, htext, hlength]
      exact h
  | byName name family =>
    have reads : Reads _ (.byName name (.ofRaw family.raw)) := .byName (number family.raw)
    rw [h] at reads
    exact reads

/-! ## Words that make no request -/

/-- The name of a query, the number of its arguments, and how many of them stand before those that
are numbers. -/
structure Signature where
  name : Bytes
  arity : Nat
  texts : Nat
  deriving DecidableEq

def signatures : List Signature :=
  [⟨ascii forwardName, 6, 2⟩, ⟨ascii byAddressName, 3, 1⟩, ⟨ascii byNameName, 2, 1⟩]

/-- A decimal number between -2^31 and 2^31 - 1, with or without a sign. -/
def IsInteger (s : Bytes) : Prop :=
  ∃ n : Int, Decimal.Spells s n ∧ -2147483648 ≤ n ∧ n < 2147483648

theorem isInteger_iff {s : Bytes} : IsInteger s ↔ ∃ n : Int32, Decimal.Spells s n.toInt := by
  constructor
  · rintro ⟨n, hs, hlo, hhi⟩
    refine ⟨Int32.ofInt n, ?_⟩
    rwa [Int32.toInt_ofInt_of_le (by omega) (by omega)]
  · rintro ⟨n, hs⟩
    exact ⟨n.toInt, hs, n.le_toInt, n.toInt_lt⟩

/-- What can be wrong with the words of a command. -/
inductive Malformed : List Bytes → Prop where
  | empty : Malformed []
  | unknown {name : Bytes} {args : List Bytes} :
      (∀ s ∈ signatures, name ≠ s.name) → Malformed (name :: args)
  | arity {s : Signature} {args : List Bytes} :
      s ∈ signatures → args.length ≠ s.arity → Malformed (s.name :: args)
  | number {s : Signature} {args : List Bytes} {field : Bytes} :
      s ∈ signatures → field ∈ args.drop s.texts → ¬ IsInteger field → Malformed (s.name :: args)
  | misfit {address length family : Bytes} :
      ¬ (∃ l f octets, Decimal.Spells length l.toInt ∧ Decimal.Spells family f.toInt ∧
        Fits l f address octets) → Malformed [ascii byAddressName, address, length, family]

theorem eq_of_name_eq :
    ∀ s ∈ signatures, ∀ t ∈ signatures, s.name = t.name → s = t := by decide

theorem Reads.signature (h : Reads words request) :
    ∃ s ∈ signatures, ∃ args, words = s.name :: args ∧ args.length = s.arity ∧
      ∀ field ∈ args.drop s.texts, IsInteger field := by
  cases h with
  | forward hf ha ht hp =>
    refine ⟨_, List.mem_cons_self, _, rfl, rfl, ?_⟩
    simp only [List.drop_succ_cons, List.drop_zero, List.forall_mem_cons, isInteger_iff]
    exact ⟨⟨_, hf⟩, ⟨_, ha⟩, ⟨_, ht⟩, ⟨_, hp⟩, List.forall_mem_nil _⟩
  | byAddress hl hf =>
    refine ⟨_, List.mem_cons_of_mem _ List.mem_cons_self, _, rfl, rfl, ?_⟩
    simp only [List.drop_succ_cons, List.drop_zero, List.forall_mem_cons, isInteger_iff]
    exact ⟨⟨_, hl⟩, ⟨_, hf⟩, List.forall_mem_nil _⟩
  | byName hf =>
    refine ⟨_, List.mem_cons_of_mem _ (List.mem_cons_of_mem _ List.mem_cons_self), _, rfl, rfl, ?_⟩
    simp only [List.drop_succ_cons, List.drop_zero, List.forall_mem_cons, isInteger_iff]
    exact ⟨⟨_, hf⟩, List.forall_mem_nil _⟩

theorem Reads.fits {address length family : Bytes}
    (h : Reads [ascii byAddressName, address, length, family] request) :
    ∃ l f octets, Decimal.Spells length l.toInt ∧ Decimal.Spells family f.toInt ∧
      Fits l f address octets := by
  generalize hwords : [ascii byAddressName, address, length, family] = words at h
  cases h with
  | forward => exact absurd (congrArg List.length hwords) (by simp)
  | byAddress hl hf hfits =>
    cases (List.cons.inj hwords).2
    exact ⟨_, _, _, hl, hf, hfits⟩
  | byName => exact absurd (congrArg List.length hwords) (by simp)

theorem Reads.not_malformed (h : Reads words request) : ¬ Malformed words := by
  intro hbad
  obtain ⟨s, hs, args, hwords, harity, hnumbers⟩ := h.signature
  cases hbad with
  | empty => cases hwords
  | unknown hunknown => exact hunknown s hs (List.cons.inj hwords).1
  | arity ht hbad =>
    obtain ⟨hname, rfl⟩ := List.cons.inj hwords
    exact hbad (eq_of_name_eq _ ht _ hs hname ▸ harity)
  | number ht hfield hbad =>
    obtain ⟨hname, rfl⟩ := List.cons.inj hwords
    obtain rfl := eq_of_name_eq _ ht _ hs hname
    exact hbad (hnumbers _ hfield)
  | misfit hbad => exact hbad h.fits

theorem exists_reads (h : ¬ Malformed words) : ∃ request, Reads words request := by
  match words with
  | [] => exact absurd .empty h
  | name :: args =>
    obtain ⟨s, hs, rfl⟩ : ∃ s ∈ signatures, name = s.name :=
      Classical.byContradiction fun hnone => h (.unknown fun s hs hname => hnone ⟨s, hs, hname⟩)
    have harity : args.length = s.arity :=
      Classical.byContradiction fun hne => h (.arity hs hne)
    have hnumbers : ∀ field ∈ args.drop s.texts, ∃ n : Int32, Decimal.Spells field n.toInt :=
      fun field hfield => isInteger_iff.mp
        (Classical.byContradiction fun hbad => h (.number hs hfield hbad))
    simp only [signatures, List.mem_cons, List.not_mem_nil, or_false] at hs
    rcases hs with rfl | rfl | rfl
    · match args, harity with
      | [_, _, _, _, _, _], _ =>
        simp only [List.drop_succ_cons, List.drop_zero, List.forall_mem_cons] at hnumbers
        obtain ⟨⟨_, hf⟩, ⟨_, ha⟩, ⟨_, ht⟩, ⟨_, hp⟩, -⟩ := hnumbers
        exact ⟨_, .forward hf ha ht hp⟩
    · match args, harity with
      | [_, _, _], _ =>
        obtain ⟨l, f, octets, hl, hf, hfits⟩ :=
          Classical.byContradiction fun hbad => h (.misfit hbad)
        exact ⟨_, .byAddress hl hf hfits⟩
    · match args, harity with
      | [_, _], _ =>
        simp only [List.drop_succ_cons, List.drop_zero, List.forall_mem_cons] at hnumbers
        obtain ⟨⟨_, hf⟩, -⟩ := hnumbers
        exact ⟨_, .byName hf⟩

/-! ## Round trip and acceptance -/

/-- Only expressible requests are read, each of them from its own arguments. The words that make no
request are the malformed ones, and they are a bad command. A line gives the command that it
writes; one way to write it is with its number first and single spaces. -/
theorem ofArguments_exact :
    (∀ words request, ofArguments words = .ok request → request.IsExpressible) ∧
      (∀ request : Request, request.IsExpressible → ofArguments request.arguments = .ok request) ∧
      (∀ words, (∃ failure, ofArguments words = .error failure) ↔ Malformed words) ∧
      (∀ words failure, ofArguments words = .error failure →
        ∃ cause, failure = .badCommand cause) ∧
      (∀ (seq : UInt32) (words : List Bytes), (∀ w ∈ words, Command.IsWord w) →
        Command.ofLine? ([space].intercalate (Decimal.ofNat seq.toNat :: words)) =
          some ⟨seq, words⟩) ∧
      ∀ line command, Command.ofLine? line = some command ↔ Command.Writes command line := by
  refine ⟨fun words request h => isExpressible_of_reads (ofArguments_eq_ok_iff.mp h),
    fun request h => ofArguments_eq_ok_iff.mpr (reads_arguments h), fun words => ?_,
    failsBadly_ofArguments, fun seq words h =>
      Command.ofLine?_eq_some_iff.mpr (Command.writes_intercalate h),
    fun line command => Command.ofLine?_eq_some_iff⟩
  constructor
  · rintro ⟨failure, hfailure⟩
    refine Classical.byContradiction fun hwords => ?_
    obtain ⟨request, hreads⟩ := exists_reads hwords
    rw [ofArguments_eq_ok_iff.mpr hreads] at hfailure
    cases hfailure
  · intro hbad
    cases hresult : ofArguments words with
    | error failure => exact ⟨failure, rfl⟩
    | ok request => exact absurd hbad (ofArguments_eq_ok_iff.mp hresult).not_malformed

def partlyHinted : Request := .forward (some (ascii "web")) none (some ⟨-1, .inet6, 1, -1⟩)

theorem partlyHinted_read_back :
    ofArguments [ascii "getaddrinfo", ascii "web", ascii "^", ascii "-1", ascii "10", ascii "1",
        ascii "-1"] = .ok partlyHinted ∧
      Command.ofLine? (ascii "7 gethostbyname web 2") =
        some ⟨7, [ascii "gethostbyname", ascii "web", ascii "2"]⟩ := by
  have expressible : partlyHinted.IsExpressible :=
    ⟨by decide, by decide, by rintro h ⟨⟩; exact ⟨rfl, by decide⟩⟩
  have isWord : ∀ w ∈ [ascii "gethostbyname", ascii "web", ascii "2"], Command.IsWord w := by
    decide
  refine ⟨?_, ?_⟩
  · have harguments : partlyHinted.arguments = [ascii "getaddrinfo", ascii "web", ascii "^",
        ascii "-1", ascii "10", ascii "1", ascii "-1"] := by decide +kernel
    exact harguments ▸ ofArguments_exact.2.1 partlyHinted expressible
  · have hline : [space].intercalate (Decimal.ofNat (7 : UInt32).toNat ::
        [ascii "gethostbyname", ascii "web", ascii "2"]) = ascii "7 gethostbyname web 2" := by
      decide +kernel
    exact hline ▸ ofArguments_exact.2.2.2.2.1 7 _ isWord

end Request

end HostLookup
