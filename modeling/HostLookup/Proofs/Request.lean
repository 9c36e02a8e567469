import HostLookup.Command
import HostLookup.Proofs.Words
import HostLookup.Request

/-!
# Well-formed commands

Every line but a blank one is a command. Reading a request from its words fails
with what is wrong with the words and with nothing else; `ofArguments_forward`
says which words make a forward request.
-/

namespace HostLookup

open Bytes

/-! ## Lines -/

namespace Command

variable {line : Bytes} {command : Command}

theorem ofLine?_eq_none_iff : ofLine? line = none ↔ ∀ b ∈ line, isSeparator b = true := by
  rw [← wordsFrom_eq_nil_iff, ← List.map_eq_nil_iff, ← wordsOfLine, ofLine?]
  split
  · next hwords => simp [hwords]
  · next hwords => split <;> simp [hwords]

theorem seq_of_ofLine? (h : ofLine? line = some command) :
    ∃ first rest, wordsOfLine line = first :: rest ∧
      command.seq = (Decimal.uint32? first).getD 0 := by
  rw [ofLine?] at h
  split at h
  · cases h
  · next first rest hwords =>
    refine ⟨first, rest, hwords, ?_⟩
    split at h
    · next hseq =>
      cases h
      rw [hseq]
      rfl
    · next hseq =>
      cases h
      rw [hseq]
      rfl

end Command

/-! ## Steps that may fail -/

section

variable {α β : Type} {x : Except Failure α} {f : α → Except Failure β}

theorem bind_eq_ok_iff {b : β} : (x >>= f) = .ok b ↔ ∃ a, x = .ok a ∧ f a = .ok b := by
  cases x with
  | ok a => simp [bind, Except.bind]
  | error failure => simp [bind, Except.bind]

theorem map_eq_ok_iff {g : α → β} {b : β} : x.map g = .ok b ↔ ∃ a, x = .ok a ∧ g a = b := by
  cases x with
  | ok a => simp [Except.map]
  | error failure => simp [Except.map]

/-- A step that fails for nothing but what is wrong with a command. -/
def FailsBadly (x : Except Failure α) : Prop :=
  ∀ failure, x = .error failure → ∃ cause, failure = .badCommand cause

namespace FailsBadly

theorem ok (a : α) : FailsBadly (.ok a) := fun _ h => by cases h

theorem error (cause : BadCommand) : FailsBadly (.error (.badCommand cause) : Except Failure α) :=
  fun _ h => by cases h; exact ⟨cause, rfl⟩

theorem bind (hx : FailsBadly x) (hf : ∀ a, FailsBadly (f a)) : FailsBadly (x >>= f) := by
  cases x with
  | ok a => exact hf a
  | error failure =>
    intro failure' h
    cases h
    exact hx _ rfl

end FailsBadly

end

theorem integerArgument_eq_ok_iff {field : String} {s : Bytes} {n : Int32} :
    integerArgument field s = .ok n ↔ Decimal.int32? s = some n := by
  unfold integerArgument
  split
  · next m hm => simp [hm]
  · next hm => simp [hm]

theorem failsBadly_integerArgument (field : String) (s : Bytes) :
    FailsBadly (integerArgument field s) := by
  unfold integerArgument
  split
  · exact .ok _
  · exact .error _

/-! ## Requests -/

namespace Request

theorem failsBadly_forwardOfArguments (args : List Bytes) :
    FailsBadly (forwardOfArguments args) := by
  unfold forwardOfArguments
  split
  · refine (failsBadly_integerArgument _ _).bind fun _ => ?_
    refine (failsBadly_integerArgument _ _).bind fun _ => ?_
    refine (failsBadly_integerArgument _ _).bind fun _ => ?_
    exact (failsBadly_integerArgument _ _).bind fun _ => .ok _
  · exact .error _

theorem failsBadly_byAddressOfArguments (args : List Bytes) :
    FailsBadly (byAddressOfArguments args) := by
  unfold byAddressOfArguments
  split
  · refine (failsBadly_integerArgument _ _).bind fun _ => ?_
    refine (failsBadly_integerArgument _ _).bind fun _ => ?_
    simp only
    split
    · exact .error _
    · split
      · exact .error _
      · split
        · exact .error _
        · exact .ok _
  · exact .error _

theorem failsBadly_byNameOfArguments (args : List Bytes) :
    FailsBadly (byNameOfArguments args) := by
  unfold byNameOfArguments
  split
  · exact (failsBadly_integerArgument _ _).bind fun _ => .ok _
  · exact .error _

/-- Words that make no request are a bad command, and fail as nothing else. -/
theorem failsBadly_ofArguments (words : List Bytes) : FailsBadly (ofArguments words) := by
  unfold ofArguments
  split
  · exact .error _
  · split
    · exact failsBadly_forwardOfArguments _
    · split
      · exact failsBadly_byAddressOfArguments _
      · split
        · exact failsBadly_byNameOfArguments _
        · exact .error _

/-- The words of a forward query are well-formed exactly if the last four are numbers. -/
theorem ofArguments_forward {host service flags family socktype protocol : Bytes}
    {request : Request} :
    ofArguments [ascii forwardName, host, service, flags, family, socktype, protocol] =
        .ok request ↔
      ∃ f a t p, Decimal.int32? flags = some f ∧ Decimal.int32? family = some a ∧
        Decimal.int32? socktype = some t ∧ Decimal.int32? protocol = some p ∧
        request = .forward (optionalArgument host) (optionalArgument service)
          (Hints.ofNumbers f a t p) := by
  rw [ofArguments, if_pos rfl, forwardOfArguments]
  simp only [bind_eq_ok_iff, integerArgument_eq_ok_iff, pure, Except.pure, Except.ok.injEq]
  constructor
  · rintro ⟨f, hf, a, ha, t, ht, p, hp, rfl⟩
    exact ⟨f, a, t, p, hf, ha, ht, hp, rfl⟩
  · rintro ⟨f, a, t, p, hf, ha, ht, hp, rfl⟩
    exact ⟨f, hf, a, ha, t, ht, p, hp, rfl⟩

end Request

end HostLookup
