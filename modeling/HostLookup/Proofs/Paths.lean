import HostLookup.Files.Tree
import HostLookup.Proofs.Texts

/-!
# Paths that are the same

Paths are the same when their components are, but a walk follows the text. The
steps that stay where they are make the whole difference: before another step
they do nothing (`walk_essential`), and at the end they ask for a directory. So
two paths that are the same and lead somewhere lead to one place
(`locate_eq_of_same`), and one of them can fail alone only by its length or by
asking for a directory (`IsRefused`).
-/

namespace HostLookup

open Bytes

/-! ## Components and steps -/

theorem Bytes.mem_iff_mem_splitOn {b : UInt8} {s : Bytes} (sep : UInt8) (h : b ≠ sep) :
    b ∈ s ↔ ∃ piece ∈ splitOn sep s, b ∈ piece := by
  induction s using cut_induction sep with
  | last s plain => simp [List.splitOn_eq_singleton plain]
  | cut piece rest plain ih =>
    rw [List.splitOn_append_cons_self_of_not_mem plain, List.mem_append, List.mem_cons,
      or_iff_right h]
    simp [ih]

namespace Component

/-- The step that a component stands for; `.` at the front and the root are no steps. -/
def step? : Component → Option Bytes
  | root | here => none
  | up => some dotdot
  | name text => some text

theorem ofPiece?_bind_step? (piece : Bytes) :
    (ofPiece? piece).bind step? = if piece.isEmpty || piece == dot then none else some piece := by
  unfold ofPiece?
  split
  · rfl
  · split
    · next h =>
      rw [beq_iff_eq.mp h]
      rfl
    · rfl

end Component

namespace Path

variable {p q : Path}

/-- The path ends in a slash or in a step that stays where it is. -/
def asksForDirectory (p : Path) : Bool := p.steps.getLast? == some dot

/-- The steps that lead elsewhere can be read off the components. -/
theorem filter_steps (p : Path) :
    p.steps.filter (· != dot) = p.components.filterMap Component.step? := by
  have hstay : (if p.endsInSlash then [dot] else []).filter (· != dot) = [] := by split <;> rfl
  have hfront : p.front.filterMap Component.step? = [] := by
    unfold front
    split
    · rfl
    · split <;> rfl
  rw [steps, names, components]
  simp only [List.filter_append, List.filterMap_append, hstay, hfront, List.append_nil,
    List.nil_append, List.filterMap_filterMap, List.filter_filter, Component.ofPiece?_bind_step?]
  rw [← List.filterMap_eq_filter]
  refine congrArg (List.filterMap · _) (funext fun piece => ?_)
  cases hempty : piece.isEmpty <;> cases hdot : piece == dot <;>
    simp [Option.guard, bne, hempty, hdot]

theorem isAbsolute_iff : p.isAbsolute = true ↔ Component.root ∈ p.components := by
  have hpieces : Component.root ∉ (splitOn slash p.text).filterMap Component.ofPiece? := by
    intro h
    obtain ⟨piece, -, hpiece⟩ := List.mem_filterMap.mp h
    unfold Component.ofPiece? at hpiece
    grind
  rw [components, List.mem_append, or_iff_left hpieces, front]
  split
  · next h => simp [h]
  · next h => split <;> simp [h]

theorem ofPiece?_ne_none {piece : Bytes} (hne : piece ≠ []) (hdot : piece ≠ dot) :
    Component.ofPiece? piece ≠ none := by
  unfold Component.ofPiece?
  rw [if_neg (by simp [hne, hdot])]
  split <;> exact Option.some_ne_none _

theorem components_ne_nil (h : p.text ≠ []) : p.components ≠ [] := by
  intro hnil
  rw [components, List.append_eq_nil_iff, List.filterMap_eq_nil_iff] at hnil
  obtain ⟨hfront, hpieces⟩ := hnil
  obtain ⟨b, rest, htext⟩ := List.exists_cons_of_ne_nil h
  unfold front at hfront
  split at hfront
  · cases hfront
  · next hrelative =>
    have hb : b ≠ slash := by
      rintro rfl
      exact hrelative (by rw [isAbsolute, htext]; rfl)
    obtain ⟨piece, hpiece⟩ : ∃ piece, (splitOn slash p.text).head? = some (b :: piece) := by
      rw [htext, List.splitOn_cons_eq_if_modifyHead, if_neg (by simpa using hb)]
      obtain ⟨piece, pieces, hpieces⟩ := List.exists_cons_of_ne_nil (List.splitOn_ne_nil slash rest)
      rw [hpieces]
      exact ⟨piece, rfl⟩
    rw [hpiece] at hfront
    have hdot : b :: piece ≠ dot := by
      intro hdot
      rw [hdot] at hfront
      cases hfront
    exact ofPiece?_ne_none (List.cons_ne_nil _ _) hdot
      (hpieces _ (List.mem_of_head? hpiece))

theorem zero_mem_text_iff :
    (0 : UInt8) ∈ p.text ↔ ∃ name, Component.name name ∈ p.components ∧ 0 ∈ name := by
  have hname : ∀ piece name, Component.ofPiece? piece = some (.name name) → piece = name := by
    intro piece name h
    unfold Component.ofPiece? at h
    grind
  have hfront : ∀ name, Component.name name ∉ p.front := by
    intro name
    unfold front
    split
    · simp
    · split <;> simp
  rw [mem_iff_mem_splitOn slash (by decide)]
  constructor
  · rintro ⟨piece, hpiece, hzero⟩
    refine ⟨piece, ?_, hzero⟩
    have hsome : Component.ofPiece? piece = some (.name piece) := by
      have hempty : piece.isEmpty = false := by cases piece <;> trivial
      have hdot : (piece == dot) = false := beq_eq_false_iff_ne.mpr fun h => by
        rw [h] at hzero
        exact absurd hzero (by decide)
      have hdotdot : (piece == dotdot) = false := beq_eq_false_iff_ne.mpr fun h => by
        rw [h] at hzero
        exact absurd hzero (by decide)
      simp [Component.ofPiece?, hempty, hdot, hdotdot]
    rw [components]
    exact List.mem_append_right _ (List.mem_filterMap.mpr ⟨piece, hpiece, hsome⟩)
  · rintro ⟨name, hmem, hzero⟩
    rw [components, List.mem_append, or_iff_right (hfront name)] at hmem
    obtain ⟨piece, hpiece, hsome⟩ := List.mem_filterMap.mp hmem
    exact ⟨piece, hpiece, hname piece name hsome ▸ hzero⟩

end Path

/-! ## Walks -/

namespace FileTree

/-- The steps that lead elsewhere, and a last one that stays. -/
def essential (steps : List Bytes) : List Bytes :=
  steps.filter (· != dot) ++ if steps.getLast? = some dot then [dot] else []

section

variable {s s' : Bytes} {xs ys rest : List Bytes}

theorem essential_singleton (s : Bytes) : essential [s] = [s] := by
  unfold essential
  by_cases h : s = dot <;> simp [h]

theorem essential_dot_cons (s : Bytes) (rest : List Bytes) :
    essential (dot :: s :: rest) = essential (s :: rest) := by
  unfold essential
  rw [List.getLast?_cons_cons, List.filter_cons, if_neg (by decide)]

theorem essential_cons (h : s ≠ dot) (s' : Bytes) (rest : List Bytes) :
    essential (s :: s' :: rest) = s :: essential (s' :: rest) := by
  unfold essential
  rw [List.getLast?_cons_cons, List.filter_cons, if_pos (by simp [h]), List.cons_append]

theorem essential_cons_ne_nil (s : Bytes) (rest : List Bytes) : essential (s :: rest) ≠ [] := by
  induction rest generalizing s with
  | nil => simp [essential_singleton]
  | cons s' rest ih =>
    by_cases h : s = dot
    · rw [h, essential_dot_cons]
      exact ih s'
    · rw [essential_cons h]
      exact List.cons_ne_nil _ _

theorem essential_essential (xs : List Bytes) : essential (essential xs) = essential xs := by
  match xs with
  | [] => rfl
  | [s] => rw [essential_singleton, essential_singleton]
  | s :: s' :: rest =>
    have ih := essential_essential (s' :: rest)
    by_cases h : s = dot
    · rw [h, essential_dot_cons, ih]
    · obtain ⟨y, ys, hy⟩ := List.exists_cons_of_ne_nil (essential_cons_ne_nil s' rest)
      rw [essential_cons h, hy, essential_cons h, ← hy, ih]

theorem essential_append (xs ys : List Bytes) :
    essential (xs ++ essential ys) = essential (xs ++ ys) := by
  cases ys with
  | nil => rfl
  | cons y ys =>
    obtain ⟨z, zs, hz⟩ := List.exists_cons_of_ne_nil (essential_cons_ne_nil y ys)
    induction xs with
    | nil => exact essential_essential _
    | cons x xs ih =>
      -- something follows `x` on either side
      obtain ⟨u, us, hu⟩ : ∃ u us, xs ++ essential (y :: ys) = u :: us :=
        List.exists_cons_of_ne_nil
          (List.append_ne_nil_of_right_ne_nil _ (essential_cons_ne_nil _ _))
      obtain ⟨v, vs, hv⟩ : ∃ v vs, xs ++ y :: ys = v :: vs :=
        List.exists_cons_of_ne_nil (List.append_ne_nil_of_right_ne_nil _ (List.cons_ne_nil _ _))
      rw [hu, hv] at ih
      rw [List.cons_append, List.cons_append, hu, hv]
      by_cases h : x = dot
      · rw [h, essential_dot_cons, essential_dot_cons, ih]
      · rw [essential_cons h, essential_cons h, ih]

end

section

variable {t : FileTree} {follow : Bool} {links : Nat} {here l : Location} {steps : List Bytes}

/-- Staying where it is asks of a walk only what its next step asks anyway. -/
theorem walk_dot_cons (t : FileTree) (follow : Bool) (links : Nat) (here : Location) (s : Bytes)
    (rest : List Bytes) :
    t.walk follow links here (dot :: s :: rest) = t.walk follow links here (s :: rest) := by
  rw [walk_cons]
  cases hget : t.get? here with
  | none => rw [walk_cons, hget]
  | some node =>
    cases node with
    | directory => simp
    | file | link | socket => rw [walk_cons, hget]

/-- What follows a step matters only through where it leads. -/
theorem walk_cons_congr {xs ys : List Bytes} (s : Bytes) (hempty : xs.isEmpty = ys.isEmpty)
    (hrest : ∀ here, t.walk follow links here xs = t.walk follow links here ys)
    (hlink : ∀ fewer target here, fewer < links →
      t.walk follow fewer here (target ++ xs) = t.walk follow fewer here (target ++ ys)) :
    t.walk follow links here (s :: xs) = t.walk follow links here (s :: ys) := by
  rw [walk_cons, walk_cons, hempty]
  simp only [hrest]
  cases links with
  | zero => rfl
  | succ links => simp only [hlink links _ _ (Nat.lt_succ_self links)]

theorem walk_essential (t : FileTree) (follow : Bool) (links : Nat) (here : Location)
    (steps : List Bytes) :
    t.walk follow links here (essential steps) = t.walk follow links here steps := by
  induction links using Nat.strongRecOn generalizing here steps with
  | ind links ihlinks =>
    induction steps generalizing here with
    | nil => rfl
    | cons s rest ih =>
      cases rest with
      | nil => rw [essential_singleton]
      | cons s' rest =>
        by_cases hdot : s = dot
        · rw [hdot, essential_dot_cons, walk_dot_cons, ih]
        · rw [essential_cons hdot]
          refine walk_cons_congr s ?_ ih fun fewer target here hfewer => ?_
          · simp [essential_cons_ne_nil]
          · -- the target of a link may end in a step that stays, so it is put in order as a whole
            rw [← ihlinks fewer hfewer, essential_append, ihlinks fewer hfewer]

theorem walk_append_dot_iff :
    t.walk true links here (steps ++ [dot]) = .ok l ↔
      t.walk true links here steps = .ok l ∧ t.isDirectoryAt l = true := by
  induction links using Nat.strongRecOn generalizing here steps with
  | ind links ihlinks =>
    induction steps generalizing here with
    | nil =>
      simp only [List.nil_append, walk_cons, walk_nil, isDirectoryAt, beq_iff_eq, Except.ok.injEq]
      cases hget : t.get? here with
      | none => grind
      | some node => cases node <;> grind
    | cons s rest ih =>
      have hmore : (rest ++ [dot]).isEmpty = false := by simp
      rw [List.cons_append, walk_cons, walk_cons]
      split
      · simp
      · split
        · exact ih
        · split
          · exact ih
          · split
            · simp
            · split
              · next hmissing =>
                -- nothing is there, so it is no directory
                rw [hmore, if_neg Bool.false_ne_true]
                constructor
                · intro h
                  cases h
                · rintro ⟨h, hdirectory⟩
                  split at h
                  · cases h
                    rw [isDirectoryAt, hmissing] at hdirectory
                    cases hdirectory
                  · cases h
              · simp only [hmore, Bool.not_true, Bool.and_false, Bool.false_eq_true, if_false]
                split
                · simp
                · split
                  · simp
                  · rw [← List.append_assoc]
                    exact ihlinks _ (Nat.lt_succ_self _)
              · exact ih
      · simp

/-! ## Locations -/

variable {p q : Path}

theorem locate_iff :
    t.locate true p = .ok l ↔ pathFault? p = none ∧
      t.walk true maxLinks (t.origin p) (p.steps.filter (· != dot)) = .ok l ∧
      (p.asksForDirectory = true → t.isDirectoryAt l = true) := by
  unfold locate
  cases pathFault? p with
  | some fault => simp
  | none =>
    simp only [true_and]
    rw [← walk_essential, essential]
    by_cases h : p.steps.getLast? = some dot
    · rw [if_pos h, walk_append_dot_iff, Path.asksForDirectory, beq_iff_eq.mpr h]
      simp
    · rw [if_neg h, List.append_nil, Path.asksForDirectory, beq_eq_false_iff_ne.mpr h]
      simp

theorem origin_eq_of_same (h : q.same p = true) : t.origin q = t.origin p := by
  have hroot : q.isAbsolute = p.isAbsolute := by
    rw [Bool.eq_iff_iff, Path.isAbsolute_iff, Path.isAbsolute_iff, Path.same_iff.mp h]
  rw [origin, origin, hroot]

theorem pathFault?_eq_none_iff :
    pathFault? p = none ↔ 0 ∉ p.text ∧ p.text ≠ [] ∧ p.text.length ≤ maxPathLength := by
  unfold pathFault?
  grind

/-- Of two paths that are the same, one that leads somewhere is refused only for its length. -/
theorem pathFault?_iff_of_same (h : q.same p = true) (hp : pathFault? p = none) :
    pathFault? q = none ↔ q.text.length ≤ maxPathLength := by
  rw [Path.same_iff] at h
  obtain ⟨hzero, hne, -⟩ := pathFault?_eq_none_iff.mp hp
  have hzero' : 0 ∉ q.text := by
    rwa [Path.zero_mem_text_iff, h, ← Path.zero_mem_text_iff]
  have hne' : q.text ≠ [] := by
    intro htext
    refine Path.components_ne_nil hne ?_
    rw [← h, Path.components, Path.front, Path.isAbsolute, htext]
    rfl
  rw [pathFault?_eq_none_iff]
  exact ⟨fun h => h.2.2, fun h => ⟨hzero', hne', h⟩⟩

/-- Paths that are the same lead to one place. -/
theorem locate_eq_of_same {m : Location} (h : q.same p = true) (hp : t.locate true p = .ok l)
    (hq : t.locate true q = .ok m) : m = l := by
  obtain ⟨-, hp, -⟩ := locate_iff.mp hp
  obtain ⟨-, hq, -⟩ := locate_iff.mp hq
  rw [Path.filter_steps, Path.same_iff.mp h, ← Path.filter_steps, origin_eq_of_same h, hp] at hq
  exact (Except.ok.inj hq).symm

theorem isDirectory_eq (h : t.locate true p = .ok l) : t.isDirectory p = t.isDirectoryAt l := by
  simp only [isDirectory, find, h, isDirectoryAt]
  cases t.get? l with
  | none => simp
  | some node => cases node <;> simp

/-- What the text of one path can have against it where a path that is the same leads somewhere: it
is too long, or it asks for a directory in the place of something else. -/
def IsRefused (t : FileTree) (q p : Path) : Prop :=
  maxPathLength < q.text.length ∨ q.asksForDirectory = true ∧ t.isDirectory p = false

theorem locate_iff_of_same (h : q.same p = true) (hp : t.locate true p = .ok l) :
    t.locate true q = .ok l ↔ ¬ t.IsRefused q p := by
  rw [IsRefused, isDirectory_eq hp]
  obtain ⟨hfault, hp, -⟩ := locate_iff.mp hp
  rw [locate_iff, pathFault?_iff_of_same h hfault, Path.filter_steps, Path.same_iff.mp h,
    ← Path.filter_steps, origin_eq_of_same h, eq_true hp, true_and, not_or, Nat.not_lt, not_and,
    Bool.not_eq_false]

theorem exists_location {opened : Opened} (h : t.openForReading p = .ok opened) :
    ∃ l, t.locate true p = .ok l := by
  unfold openForReading at h
  split at h
  · cases h
  · exact ⟨_, ‹_›⟩

theorem openForReading_of_same {opened : Opened} (h : q.same p = true)
    (hp : t.openForReading p = .ok opened) (hq : ¬ t.IsRefused q p) :
    t.openForReading q = .ok opened := by
  obtain ⟨l, hl⟩ := exists_location hp
  rw [openForReading, (locate_iff_of_same h hl).mpr hq]
  rwa [openForReading, hl] at hp

theorem openForReading_of_isRefused {opened : Opened} (h : q.same p = true)
    (hp : t.openForReading p = .ok opened) (hq : t.IsRefused q p) :
    ∃ fault, t.openForReading q = .error fault := by
  obtain ⟨l, hl⟩ := exists_location hp
  rw [openForReading]
  cases hm : t.locate true q with
  | error fault => exact ⟨fault, rfl⟩
  | ok m =>
    obtain rfl := locate_eq_of_same h hl hm
    exact absurd hq ((locate_iff_of_same h hl).mp hm)

end
end FileTree

end HostLookup
