import HostLookup.Proofs.Answers
import HostLookup.Proofs.Texts
import HostLookup.Proofs.Utf8
import HostLookup.Server

/-!
# Serving a stream

`Delivers` says which lines a stream of bytes delivers: the valid ones up to the
first that is not. What cuts a stream into lines agrees with it (`delivers_iff`),
and so does a connection that gets the stream in pieces (`Connection.readAll_eq`).
Since a line feed is a character of its own, a stream delivers all its lines
exactly if it is valid as a whole (`linesOf_complete_iff`).
-/

namespace HostLookup

open Bytes

namespace Command

/-- The lines that a stream delivers, and how it ends. -/
inductive Delivers : Bytes → List Bytes → StreamEnd → Prop where
  | nothing : Delivers [] [] .complete
  | line {body rest : Bytes} {lines : List Bytes} {ending : StreamEnd} (plain : newline ∉ body)
      (valid : body.toByteArray.IsValidUTF8) (more : Delivers rest lines ending) :
      Delivers (body ++ newline :: rest) (withoutReturn body :: lines) ending
  /-- The last line may lack its line feed, and then keeps all its bytes. -/
  | last {body : Bytes} (plain : newline ∉ body) (valid : body.toByteArray.IsValidUTF8)
      (nonempty : body ≠ []) : Delivers body [body] .complete
  | broken {body rest : Bytes} (plain : newline ∉ body)
      (invalid : ¬ body.toByteArray.IsValidUTF8) (ends : ∀ b ∈ rest.head?, b = newline) :
      Delivers (body ++ rest) [] .malformed

/-- The second stream is the first one with carriage returns before some of its line feeds. -/
inductive WithReturns : Bytes → Bytes → Prop where
  | rest {body : Bytes} (plain : newline ∉ body) : WithReturns body body
  | same {body rest rest' : Bytes} (plain : newline ∉ body) (more : WithReturns rest rest') :
      WithReturns (body ++ newline :: rest) (body ++ newline :: rest')
  | added {body rest rest' : Bytes} (plain : newline ∉ body) (more : WithReturns rest rest') :
      WithReturns (body ++ newline :: rest) (body ++ carriageReturn :: newline :: rest')

section

variable {body rest stream stream' line : Bytes} {lines bodies : List Bytes} {ending : StreamEnd}

/-! ## Line by line -/

theorem rawLines_of_notMem (plain : newline ∉ body) :
    rawLines body = if body.isEmpty then [] else [body] := by
  unfold rawLines
  rw [List.splitOn_eq_singleton plain]
  rfl

theorem rawLines_append_cons (plain : newline ∉ body) (rest : Bytes) :
    rawLines (body ++ newline :: rest) = withoutReturn body :: rawLines rest := by
  unfold rawLines
  rw [List.splitOn_append_cons_self_of_not_mem plain]
  obtain ⟨piece, pieces, hpieces⟩ := List.exists_cons_of_ne_nil (List.splitOn_ne_nil newline rest)
  rw [hpieces]
  rfl

theorem readable_cons (line : Bytes) (lines : List Bytes) :
    readable (line :: lines) =
      if Utf8.valid line = true then (line :: (readable lines).1, (readable lines).2)
      else ([], .malformed) := by
  unfold readable
  by_cases h : Utf8.valid line = true
  · rw [if_pos h, List.takeWhile_cons_of_pos h]
    simp only [List.length_cons, Nat.add_right_cancel_iff]
  · rw [if_neg h, List.takeWhile_cons_of_neg h]
    rfl

theorem valid_append_return (body : Bytes) :
    Utf8.valid (body ++ [carriageReturn]) = Utf8.valid body := by
  rw [Utf8.valid_append_cons (by decide)]
  exact Bool.and_true _

theorem valid_withoutReturn (line : Bytes) : Utf8.valid (withoutReturn line) = Utf8.valid line := by
  unfold withoutReturn
  split
  · next h =>
    obtain ⟨body, rfl⟩ := List.getLast?_eq_some_iff.mp h
    rw [List.dropLast_concat, valid_append_return]
  · rfl

theorem linesOf_of_notMem (plain : newline ∉ body) :
    linesOf body =
      if body = [] then ([], .complete)
      else if Utf8.valid body = true then ([body], .complete) else ([], .malformed) := by
  rw [linesOf, rawLines_of_notMem plain]
  by_cases h : body = []
  · rw [if_pos h, h]
    rfl
  · rw [if_neg h, List.isEmpty_eq_false_iff.mpr h]
    exact readable_cons body []

theorem linesOf_append_cons (plain : newline ∉ body) (rest : Bytes) :
    linesOf (body ++ newline :: rest) =
      if Utf8.valid body = true then (withoutReturn body :: (linesOf rest).1, (linesOf rest).2)
      else ([], .malformed) := by
  rw [linesOf, rawLines_append_cons plain, readable_cons, valid_withoutReturn]
  rfl

theorem delivers_iff : Delivers stream lines ending ↔ linesOf stream = (lines, ending) := by
  constructor
  · intro h
    induction h with
    | nothing => rfl
    | line plain valid more ih =>
      rw [linesOf_append_cons plain, if_pos (Utf8.isValidUTF8_iff.mp valid), ih]
    | last plain valid nonempty =>
      rw [linesOf_of_notMem plain, if_neg nonempty, if_pos (Utf8.isValidUTF8_iff.mp valid)]
    | @broken body rest plain invalid ends =>
      have invalid := mt Utf8.isValidUTF8_iff.mpr invalid
      cases rest with
      | nil =>
        have nonempty : body ≠ [] := fun h => invalid (h ▸ rfl)
        rw [List.append_nil, linesOf_of_notMem plain, if_neg nonempty, if_neg invalid]
      | cons b rest =>
        obtain rfl := ends b rfl
        rw [linesOf_append_cons plain, if_neg invalid]
  · intro h
    induction stream using cut_induction newline generalizing lines ending with
    | last body plain =>
      rw [linesOf_of_notMem plain] at h
      split at h
      · next hnil =>
        cases h
        rw [hnil]
        exact .nothing
      · next nonempty =>
        split at h
        · next valid =>
          cases h
          exact .last plain (Utf8.isValidUTF8_iff.mpr valid) nonempty
        · next invalid =>
          cases h
          have hbroken : Delivers (body ++ []) [] .malformed :=
            .broken plain (mt Utf8.isValidUTF8_iff.mp invalid) (by simp)
          rwa [List.append_nil] at hbroken
    | cut body rest plain ih =>
      rw [linesOf_append_cons plain] at h
      split at h
      · next valid =>
        cases h
        exact .line plain (Utf8.isValidUTF8_iff.mpr valid) (ih rfl)
      · next invalid =>
        cases h
        exact .broken plain (mt Utf8.isValidUTF8_iff.mp invalid) (by rintro b ⟨⟩; rfl)

/-- All lines of a stream are valid exactly if the stream is. -/
theorem linesOf_complete_iff : (linesOf stream).2 = .complete ↔ Utf8.valid stream = true := by
  induction stream using cut_induction newline with
  | last body plain =>
    rw [linesOf_of_notMem plain]
    split
    · next h =>
      rw [h]
      exact iff_of_true rfl rfl
    · split
      · next valid => exact iff_of_true rfl valid
      · next invalid => exact iff_of_false (by simp) invalid
  | cut body rest plain ih =>
    rw [linesOf_append_cons plain, Utf8.valid_append_cons (by decide), Bool.and_eq_true]
    split
    · next valid =>
      rw [ih]
      exact (and_iff_right valid).symm
    · next invalid => exact iff_of_false (by simp) fun h => invalid h.1

theorem linesOf_append (valid : Utf8.valid stream = true)
    (ends : ∀ b ∈ stream.getLast?, b = newline) (more : Bytes) :
    linesOf (stream ++ more) =
      ((linesOf stream).1 ++ (linesOf more).1, (linesOf more).2) := by
  induction stream using cut_induction newline with
  | last body plain =>
    cases hlast : body.getLast? with
    | none =>
      rw [List.getLast?_eq_none_iff.mp hlast]
      rfl
    | some b =>
      obtain rfl := ends b hlast
      exact absurd (List.mem_of_getLast? hlast) plain
  | cut body rest plain ih =>
    rw [Utf8.valid_append_cons (by decide), Bool.and_eq_true] at valid
    have hends : ∀ b ∈ rest.getLast?, b = newline := by
      intro b hb
      refine ends b ?_
      rw [List.getLast?_append, List.getLast?_cons, Option.mem_def.mp hb]
      rfl
    rw [List.append_assoc, List.cons_append, linesOf_append_cons plain, if_pos valid.1,
      linesOf_append_cons plain, if_pos valid.1, ih valid.2 hends]
    rfl

/-! ## Carriage returns -/

theorem wordsOfLine_append_return (line : Bytes) :
    wordsOfLine (line ++ [carriageReturn]) = wordsOfLine line :=
  wordTexts_eq_iff.mpr
    ((spaced_wordTexts isSeparator line).append_gap (List.forall_mem_singleton.mpr rfl))

theorem ofLine?_withoutReturn (line : Bytes) : ofLine? (withoutReturn line) = ofLine? line := by
  unfold withoutReturn
  split
  · next h =>
    obtain ⟨body, rfl⟩ := List.getLast?_eq_some_iff.mp h
    rw [List.dropLast_concat, ofLine?, ofLine?, wordsOfLine_append_return]
  · rfl

theorem withoutReturn_concat (body : Bytes) : withoutReturn (body ++ [carriageReturn]) = body := by
  rw [withoutReturn, if_pos List.getLast?_concat, List.dropLast_concat]

/-- Carriage returns change neither the commands of a stream nor how it ends. -/
theorem WithReturns.linesOf_eq (h : WithReturns stream stream') :
    (linesOf stream').1.map ofLine? = (linesOf stream).1.map ofLine? ∧
      (linesOf stream').2 = (linesOf stream).2 := by
  induction h with
  | rest => exact ⟨rfl, rfl⟩
  | same plain more ih =>
    rw [linesOf_append_cons plain, linesOf_append_cons plain]
    split
    · simp only [List.map_cons, ih, and_self]
    · exact ⟨rfl, rfl⟩
  | @added body rest rest' plain more ih =>
    have hplain : newline ∉ body ++ [carriageReturn] := notMem_append plain (by decide)
    have hsplit : body ++ carriageReturn :: newline :: rest' =
        (body ++ [carriageReturn]) ++ newline :: rest' := by
      rw [List.append_assoc, List.singleton_append]
    rw [hsplit, linesOf_append_cons hplain, linesOf_append_cons plain, valid_append_return]
    split
    · simp only [List.map_cons, withoutReturn_concat, ofLine?_withoutReturn, ih, and_self]
    · exact ⟨rfl, rfl⟩

/-! ## Pieces of a stream -/

/-- Whole lines are read up to the first that is not valid, and what follows only if there is
none. -/
theorem linesOf_flatMap_append (plain : ∀ body ∈ bodies, newline ∉ body) (rest : Bytes) :
    linesOf (bodies.flatMap (· ++ [newline]) ++ rest) =
      match readable (bodies.map withoutReturn) with
      | (lines, .complete) => (lines ++ (linesOf rest).1, (linesOf rest).2)
      | (lines, .malformed) => (lines, .malformed) := by
  induction bodies with
  | nil => rfl
  | cons body bodies ih =>
    obtain ⟨hbody, hbodies⟩ := List.forall_mem_cons.mp plain
    rw [List.flatMap_cons, List.append_assoc, List.append_assoc, List.singleton_append,
      linesOf_append_cons hbody, List.map_cons, readable_cons, valid_withoutReturn, ih hbodies]
    cases readable (bodies.map withoutReturn) with
    | mk lines ending => cases ending <;> split <;> rfl

theorem flatMap_dropLast_splitOn (s : Bytes) :
    (splitOn newline s).dropLast.flatMap (· ++ [newline]) ++
      (splitOn newline s).getLast?.getD [] = s := by
  induction s using cut_induction newline with
  | last body plain =>
    rw [List.splitOn_eq_singleton plain]
    rfl
  | cut body rest plain ih =>
    obtain ⟨piece, pieces, hpieces⟩ := List.exists_cons_of_ne_nil (List.splitOn_ne_nil newline rest)
    rw [hpieces] at ih
    rw [List.splitOn_append_cons_self_of_not_mem plain, hpieces, List.dropLast_cons_cons,
      List.flatMap_cons, List.getLast?_cons_cons, List.append_assoc, ih, List.append_assoc,
      List.singleton_append]

end

end Command

namespace Connection

/-- The lines that a connection hands over while bytes arrive in pieces. -/
def feed (c : Connection) : List Bytes → List Bytes × Connection
  | [] => ([], c)
  | data :: more =>
    let (lines, after) := c.receive data
    let (lines', after') := after.feed more
    (lines ++ lines', after')

/-- What a connection hands over from pieces and the end of a stream, and how that ended. -/
def readAll (c : Connection) (pieces : List Bytes) : List Bytes × StreamEnd :=
  let (lines, after) := c.feed pieces
  let (lines', ending, _) := after.finish
  (lines ++ lines', if after.reading then ending else .malformed)

section

variable {c after : Connection} {data : Bytes} {lines : List Bytes}

theorem feed_of_not_reading (h : c.reading = false) (pieces : List Bytes) :
    c.feed pieces = ([], c) := by
  induction pieces with
  | nil => rfl
  | cons data pieces ih =>
    have hreceive : c.receive data = ([], c) := by
      rw [receive, h]
      rfl
    simp only [feed, hreceive, ih, List.append_nil]

theorem readAll_of_not_reading (h : c.reading = false) (pieces : List Bytes) :
    c.readAll pieces = ([], .malformed) := by
  simp only [readAll, feed_of_not_reading h, finish, h]
  rfl

theorem readAll_cons (h : c.receive data = (lines, after)) (pieces : List Bytes) :
    c.readAll (data :: pieces) =
      (lines ++ (after.readAll pieces).1, (after.readAll pieces).2) := by
  simp only [readAll, feed, h, List.append_assoc]

/-- What a connection has kept is the start of a line; it reads that and what comes as one
stream. -/
theorem readAll_eq (reading : c.reading = true) (plain : newline ∉ c.pending)
    (pieces : List Bytes) : c.readAll pieces = Command.linesOf (c.pending ++ pieces.flatten) := by
  induction pieces generalizing c with
  | nil =>
    rw [List.flatten_nil, List.append_nil, Command.linesOf, Command.rawLines_of_notMem plain]
    simp only [readAll, feed, finish, reading]
    cases c.pending.isEmpty <;> rfl
  | cons data pieces ih =>
    let cut := splitOn newline (c.pending ++ data)
    let last := cut.getLast?.getD []
    have hplain : ∀ piece ∈ cut, newline ∉ piece := fun piece => not_mem_of_mem_splitOn
    have hlast : newline ∉ last := by
      show newline ∉ cut.getLast?.getD []
      rw [List.getLast?_eq_some_getLast (List.splitOn_ne_nil newline (c.pending ++ data))]
      exact hplain _ (List.getLast_mem _)
    have hstream : c.pending ++ (data :: pieces).flatten =
        cut.dropLast.flatMap (· ++ [newline]) ++ (last ++ pieces.flatten) := by
      rw [List.flatten_cons, ← List.append_assoc, ← List.append_assoc,
        Command.flatMap_dropLast_splitOn]
    have hreceive : c.receive data =
        match Command.readable (cut.dropLast.map Command.withoutReturn) with
        | (lines, .complete) => (lines, { c with pending := last })
        | (lines, .malformed) => (lines, { c with pending := [], reading := false }) := by
      rw [receive, reading]
      rfl
    rw [hstream, Command.linesOf_flatMap_append
      fun piece h => hplain piece (List.dropLast_subset _ h)]
    cases hread : Command.readable (cut.dropLast.map Command.withoutReturn) with
    | mk lines ending =>
      rw [hread] at hreceive
      cases ending with
      | complete =>
        rw [readAll_cons hreceive, ih (c := { c with pending := last }) reading hlast]
      | malformed =>
        rw [readAll_cons hreceive, readAll_of_not_reading rfl, List.append_nil]

end

end Connection

namespace Dispatcher

section

variable {d : Dispatcher} {c : Nat} {lines lines' : List Bytes} {stream more : Bytes}

theorem serve_eq (d : Dispatcher) (c : Nat) (stream : Bytes) :
    d.serve c stream =
      ((Command.linesOf stream).1.foldl (fun d line => d.handleLine c line) d,
        (Command.linesOf stream).2) := by
  have hrun : ∀ (lines : List Bytes) (d : Dispatcher),
      d.run (lines.map (.line c)) = lines.foldl (fun d line => d.handleLine c line) d :=
    fun lines d => List.foldl_map
  rw [serve, ← hrun]

theorem handleLine_congr {line line' : Bytes} (h : Command.ofLine? line' = Command.ofLine? line) :
    d.handleLine c line' = d.handleLine c line := by
  rw [handleLine, h, ← handleLine]

theorem foldl_handleLine_congr (h : lines'.map Command.ofLine? = lines.map Command.ofLine?) :
    lines'.foldl (fun d line => d.handleLine c line) d =
      lines.foldl (fun d line => d.handleLine c line) d := by
  induction lines generalizing lines' d with
  | nil => rw [List.map_eq_nil_iff.mp h]
  | cons line lines ih =>
    obtain ⟨line', lines', rfl, hline, hlines⟩ := List.map_eq_cons_iff.mp h
    rw [List.foldl_cons, List.foldl_cons, handleLine_congr hline, ih hlines]

end

/--
A stream of any bytes, which a client sends to a dispatcher in any state. Serving it succeeds
exactly if the stream is valid. In either case it handles, in order, the lines that the stream
delivers, and no others; a connection hands over the same lines, however the stream is cut in
pieces. What follows a valid stream that ends in a line feed is served as if it were alone, and
carriage returns before line feeds change no command.
-/
theorem serve_exact (d : Dispatcher) (c : Nat) (stream : Bytes) :
    ((d.serve c stream).2 = .complete ↔ stream.toByteArray.IsValidUTF8) ∧
    ((d.serve c stream).2 = .malformed ↔ ¬ stream.toByteArray.IsValidUTF8) ∧
    (∃ lines, Command.Delivers stream lines (d.serve c stream).2 ∧
      (d.serve c stream).1 = lines.foldl (fun d line => d.handleLine c line) d ∧
      ∀ lines' ending, Command.Delivers stream lines' ending →
        lines' = lines ∧ ending = (d.serve c stream).2) ∧
    (∀ pieces : List Bytes, pieces.flatten = stream →
      Command.Delivers stream (Connection.readAll { client := c } pieces).1
        (Connection.readAll { client := c } pieces).2) ∧
    (stream.toByteArray.IsValidUTF8 → stream.getLast? = some newline → ∀ more,
      d.serve c (stream ++ more) = (d.serve c stream).1.serve c more ∧
      ∀ lines lines' ending, Command.Delivers stream lines .complete →
        Command.Delivers more lines' ending →
          Command.Delivers (stream ++ more) (lines ++ lines') ending) ∧
    ∀ stream', Command.WithReturns stream stream' → d.serve c stream' = d.serve c stream ∧
      ∀ lines lines' ending ending', Command.Delivers stream lines ending →
        Command.Delivers stream' lines' ending' →
          lines'.map Command.ofLine? = lines.map Command.ofLine? := by
  have complete : (d.serve c stream).2 = .complete ↔ stream.toByteArray.IsValidUTF8 := by
    rw [serve_eq, Utf8.isValidUTF8_iff, Command.linesOf_complete_iff]
  refine ⟨complete, ?_, ?_, ?_, ?_, ?_⟩
  · rw [← complete]
    cases (d.serve c stream).2 <;> simp
  · refine ⟨(Command.linesOf stream).1, Command.delivers_iff.mpr ?_, ?_, fun lines' ending h => ?_⟩
    · rw [serve_eq]
    · rw [serve_eq]
    · rw [serve_eq, Command.delivers_iff.mp h]
      exact ⟨rfl, rfl⟩
  · rintro pieces rfl
    rw [Connection.readAll_eq rfl List.not_mem_nil]
    exact Command.delivers_iff.mpr rfl
  · intro valid ends more
    have hends : ∀ b ∈ stream.getLast?, b = newline := by
      rintro b hb
      exact Option.some.inj (hb.symm.trans ends)
    have happend := Command.linesOf_append (Utf8.isValidUTF8_iff.mp valid) hends more
    refine ⟨?_, fun lines lines' ending h h' => Command.delivers_iff.mpr ?_⟩
    · rw [serve_eq, happend, serve_eq, serve_eq, List.foldl_append]
    · rw [happend, Command.delivers_iff.mp h, Command.delivers_iff.mp h']
  · intro stream' returns
    obtain ⟨hcommands, hending⟩ := returns.linesOf_eq
    refine ⟨?_, fun lines lines' ending ending' h h' => ?_⟩
    · rw [serve_eq, serve_eq, foldl_handleLine_congr hcommands, hending]
    · rwa [Command.delivers_iff.mp h, Command.delivers_iff.mp h'] at hcommands

def cutCharacter : Bytes := [0xC3, newline]

theorem cutCharacter_served :
    oneClient.serve 0 (ascii "8\n" ++ cutCharacter) =
        (oneClient.serve 0 (ascii "8\n")).1.serve 0 cutCharacter ∧
      (oneClient.serve 0 (ascii "8\n" ++ cutCharacter)).2 = .malformed ∧
      oneClient.serve 0 (ascii "8\r\n") = oneClient.serve 0 (ascii "8\n") := by
  have valid : (ascii "8\n").toByteArray.IsValidUTF8 := Utf8.isValidUTF8_iff.mpr (by decide +kernel)
  have invalid : ¬ (ascii "8\n" ++ cutCharacter).toByteArray.IsValidUTF8 :=
    mt Utf8.isValidUTF8_iff.mp (by decide +kernel)
  have plain : newline ∉ ascii "8" := by decide
  have returns : Command.WithReturns (ascii "8\n") (ascii "8\r\n") :=
    .added plain (.rest List.not_mem_nil)
  obtain ⟨-, -, -, -, following, same⟩ := serve_exact oneClient 0 (ascii "8\n")
  obtain ⟨-, malformed, -⟩ := serve_exact oneClient 0 (ascii "8\n" ++ cutCharacter)
  exact ⟨(following valid rfl cutCharacter).1, malformed.mpr invalid, (same _ returns).1⟩

end Dispatcher

end HostLookup
