import Mathlib.Logic.Relation
import HostLookup.Files.Socket
import HostLookup.Proofs.Paths

/-!
# Walks in a tree that grows

An entry that is put where nothing is takes nothing away: what was in the tree
is a part of what is then (`IsPart`), and every walk to something that was there
leads to it still (`locate_of_isPart`). Directories that are made one after the
other are such entries, each where the path it was made for leads (`GrowsAt`).
-/

namespace HostLookup

open Bytes

/-- The path `q` is above `p`: it is the parent of `p`, or above that. -/
def Path.IsAbove (q p : Path) : Prop := Relation.TransGen (fun p q => p.parent? = some q) p q

/-- The path `q` is `p` or above it. -/
def Path.IsOver (q p : Path) : Prop := Relation.ReflTransGen (fun p q => p.parent? = some q) p q

namespace FileTree

/-- All of `t` is in `u`, and walks start at the same place. -/
structure IsPart (t u : FileTree) : Prop where
  here : u.here = t.here
  get? : ∀ l n, t.get? l = some n → u.get? l = some n

/-- What `u` has and `t` has not are directories that paths of `P` lead to. -/
structure GrowsAt (P : Path → Prop) (t u : FileTree) : Prop where
  isPart : t.IsPart u
  new : ∀ l, t.get? l = none →
    u.get? l = none ∨ u.get? l = some .directory ∧ ∃ p, P p ∧ u.locate true p = .ok l

/-- A name that a walk looks up in the directory it is at. -/
structure IsPlainStep (step : Bytes) : Prop where
  not_dot : step ≠ dot
  not_dotdot : step ≠ dotdot
  length_le : step.length ≤ maxNameLength

/-- A walk from a directory along its steps to what is there, links followed. -/
inductive Leads (t : FileTree) : Nat → Location → List Bytes → Location → Prop where
  | done {links : Nat} {l : Location} : Leads t links l [] l
  | stay {links : Nat} {here l : Location} {rest : List Bytes}
      (directory : t.get? here = some .directory) (next : Leads t links here rest l) :
      Leads t links here (dot :: rest) l
  | up {links : Nat} {here l : Location} {rest : List Bytes}
      (directory : t.get? here = some .directory) (next : Leads t links here.dropLast rest l) :
      Leads t links here (dotdot :: rest) l
  | enter {links : Nat} {here l : Location} {step : Bytes} {rest : List Bytes} {n : FileNode}
      (directory : t.get? here = some .directory) (plain : IsPlainStep step)
      (entry : t.get? (here ++ [step]) = some n) (noLink : ∀ target, n ≠ .link target)
      (next : Leads t links (here ++ [step]) rest l) : Leads t links here (step :: rest) l
  | follow {links : Nat} {here l : Location} {step : Bytes} {rest : List Bytes} {target : Path}
      (directory : t.get? here = some .directory) (plain : IsPlainStep step)
      (entry : t.get? (here ++ [step]) = some (.link target)) (somewhere : target.text ≠ [])
      (next : Leads t links (if target.isAbsolute then [] else here) (target.steps ++ rest) l) :
      Leads t (links + 1) here (step :: rest) l

section

variable {t u v : FileTree} {links : Nat} {here l m : Location} {steps : List Bytes}
  {n : FileNode} {p : Path} {P Q : Path → Prop}

/-! ## Entries -/

theorem lookup_filter_ne (entries : List (Location × FileNode)) (l m : Location) :
    (entries.filter (·.1 != l)).lookup m = if m = l then none else entries.lookup m := by
  induction entries with
  | nil => simp
  | cons e entries ih =>
    obtain ⟨place, n⟩ := e
    by_cases hplace : place = l
    · subst hplace
      rw [List.filter_cons_of_neg (by simp), ih, List.lookup_cons]
      by_cases hm : m = place
      · rw [if_pos hm, if_pos hm]
      · rw [if_neg hm, if_neg hm, beq_eq_false_iff_ne.mpr hm]
    · rw [List.filter_cons_of_pos (by simpa using hplace), List.lookup_cons, List.lookup_cons, ih]
      by_cases hm : m = place
      · subst hm
        simp [hplace]
      · rw [beq_eq_false_iff_ne.mpr hm]

theorem get?_put (hl : l ≠ []) : (t.put l n).get? m = if m = l then some n else t.get? m := by
  unfold get? put
  by_cases hm : m = l
  · subst hm
    simp [hl]
  · simp only [List.lookup_cons, beq_eq_false_iff_ne.mpr hm, lookup_filter_ne, if_neg hm]

theorem get?_erase (hl : l ≠ []) : (t.erase l).get? m = if m = l then none else t.get? m := by
  unfold get? erase
  by_cases hm : m = l
  · subst hm
    simp [hl, lookup_filter_ne]
  · simp only [lookup_filter_ne, if_neg hm]

theorem ne_nil_of_get? (h : t.get? l = none) : l ≠ [] := by
  rintro rfl
  cases h

/-! ## Walks -/

theorem leads_of_walk (h : t.walk true links here steps = .ok l) (hl : t.get? l ≠ none) :
    t.Leads links here steps l := by
  induction links using Nat.strongRecOn generalizing here steps with
  | ind links ihlinks =>
    induction steps generalizing here with
    | nil =>
      cases h.symm.trans (t.walk_nil true links here)
      exact .done
    | cons step rest ih =>
      rw [walk_cons] at h
      split at h
      · cases h
      · next directory =>
        split at h
        · next hdot => exact hdot ▸ .stay directory (ih h)
        · next hdot =>
          split at h
          · next hdotdot => exact hdotdot ▸ .up directory (ih h)
          · next hdotdot =>
            split at h
            · cases h
            · next hlength =>
              have plain : IsPlainStep step := ⟨hdot, hdotdot, Nat.le_of_not_lt hlength⟩
              split at h
              · next missing =>
                split at h
                · cases h
                  exact absurd missing hl
                · cases h
              · next target entry =>
                rw [Bool.not_true, Bool.and_false, if_neg Bool.false_ne_true] at h
                split at h
                · cases h
                · next links =>
                  split at h
                  · cases h
                  · next somewhere =>
                    exact .follow directory plain entry (by simpa using somewhere)
                      (ihlinks links (Nat.lt_succ_self links) h)
              · next n noLink entry => exact .enter directory plain entry noLink (ih h)
      · cases h

theorem walk_enter {follow : Bool} {step : Bytes} {rest : List Bytes}
    (directory : t.get? here = some .directory) (plain : IsPlainStep step)
    (entry : t.get? (here ++ [step]) = some n) (noLink : ∀ target, n ≠ .link target) :
    t.walk follow links here (step :: rest) = t.walk follow links (here ++ [step]) rest := by
  rw [walk_cons, directory]
  simp only [if_neg plain.not_dot, if_neg plain.not_dotdot,
    if_neg (Nat.not_lt_of_le plain.length_le), entry]

theorem walk_follow {follow : Bool} {step : Bytes} {rest : List Bytes} {target : Path}
    (directory : t.get? here = some .directory) (plain : IsPlainStep step)
    (entry : t.get? (here ++ [step]) = some (.link target)) (somewhere : target.text ≠ [])
    (goes : (rest.isEmpty && !follow) = false) :
    t.walk follow (links + 1) here (step :: rest) =
      t.walk follow links (if target.isAbsolute then [] else here) (target.steps ++ rest) := by
  have somewhere' : target.text.isEmpty = false := by simpa using somewhere
  rw [walk_cons, directory]
  simp only [if_neg plain.not_dot, if_neg plain.not_dotdot,
    if_neg (Nat.not_lt_of_le plain.length_le), entry, somewhere', goes, Bool.false_eq_true,
    if_false]

theorem Leads.walk_eq (h : t.Leads links here steps l) :
    t.walk true links here steps = .ok l := by
  induction h with
  | done => rw [walk_nil]
  | stay directory _ ih => rw [walk_cons, directory, if_pos rfl, ih]
  | up directory _ ih => rw [walk_cons, directory, if_neg (by decide), if_pos rfl, ih]
  | enter directory plain entry noLink _ ih => rw [walk_enter directory plain entry noLink, ih]
  | follow directory plain entry somewhere _ ih =>
    rw [walk_follow directory plain entry somewhere (Bool.and_false _), ih]

theorem Leads.concat {step : Bytes} (h : t.Leads links here steps l)
    (directory : t.get? l = some .directory) (plain : IsPlainStep step)
    (entry : t.get? (l ++ [step]) = some n) (noLink : ∀ target, n ≠ .link target) :
    t.Leads links here (steps ++ [step]) (l ++ [step]) := by
  induction h with
  | done => exact .enter directory plain entry noLink .done
  | stay here _ ih => exact .stay here (ih directory entry)
  | up here _ ih => exact .up here (ih directory entry)
  | enter here plain' entry' noLink' _ ih =>
    exact .enter here plain' entry' noLink' (ih directory entry)
  | follow here plain' entry' somewhere _ ih =>
    rw [List.cons_append]
    refine .follow here plain' entry' somewhere ?_
    rw [← List.append_assoc]
    exact ih directory entry

/-- By one name more a walk leads to the place of an entry, be it there or not, a link or not. -/
theorem Leads.walk_concat {step : Bytes} (h : t.Leads links here steps l)
    (directory : t.get? l = some .directory) (plain : IsPlainStep step) :
    t.walk false links here (steps ++ [step]) = .ok (l ++ [step]) := by
  have more (rest : List Bytes) : ((rest ++ [step]).isEmpty && !false) = false := by simp
  induction h with
  | @done _ here =>
    rw [List.nil_append]
    cases hget : t.get? (here ++ [step]) with
    | none =>
      rw [walk_cons, directory]
      simp [if_neg plain.not_dot, if_neg plain.not_dotdot,
        if_neg (Nat.not_lt_of_le plain.length_le), hget]
    | some n =>
      by_cases hlink : ∃ target, n = .link target
      · obtain ⟨target, rfl⟩ := hlink
        rw [walk_cons, directory]
        simp [if_neg plain.not_dot, if_neg plain.not_dotdot,
          if_neg (Nat.not_lt_of_le plain.length_le), hget]
      · rw [walk_enter directory plain hget (not_exists.mp hlink), walk_nil]
  | stay here _ ih => rw [List.cons_append, walk_cons, here, if_pos rfl, ih directory]
  | up here _ ih =>
    rw [List.cons_append, walk_cons, here, if_neg (by decide), if_pos rfl, ih directory]
  | enter here plain' entry noLink _ ih =>
    rw [List.cons_append, walk_enter here plain' entry noLink, ih directory]
  | @follow _ _ _ _ rest target here plain' entry somewhere _ ih =>
    rw [List.cons_append, walk_follow here plain' entry somewhere (more rest), ← List.append_assoc,
      ih directory]

theorem Leads.isDirectory_start (h : t.Leads links here steps l)
    (hl : t.get? l = some .directory) : t.get? here = some .directory := by
  cases h with
  | done => exact hl
  | stay directory | up directory | enter directory | follow directory => exact directory

/-- No walk to a directory passes a socket. -/
theorem Leads.of_preserves (h : t.Leads links here steps l) (hl : t.get? l = some .directory)
    (hkept : ∀ m n, t.get? m = some n → n ≠ .socket → u.get? m = some n) :
    u.Leads links here steps l := by
  have kept {m : Location} (hm : t.get? m = some .directory) : u.get? m = some .directory :=
    hkept m _ hm FileNode.noConfusion
  induction h with
  | done => exact .done
  | stay directory _ ih => exact .stay (kept directory) (ih hl)
  | up directory _ ih => exact .up (kept directory) (ih hl)
  | enter directory plain entry noLink next ih =>
    cases entry.symm.trans (next.isDirectory_start hl)
    exact .enter (kept directory) plain (kept entry) noLink (ih hl)
  | follow directory plain entry somewhere _ ih =>
    exact .follow (kept directory) plain (hkept _ _ entry FileNode.noConfusion) somewhere (ih hl)

/-! ## Parts -/

theorem IsPart.refl (t : FileTree) : t.IsPart t := ⟨rfl, fun _ _ h => h⟩

theorem IsPart.trans (h : t.IsPart u) (h' : u.IsPart v) : t.IsPart v :=
  ⟨h'.here.trans h.here, fun l n hl => h'.get? l n (h.get? l n hl)⟩

theorem isPart_put (h : t.get? l = none) (n : FileNode) : t.IsPart (t.put l n) := by
  refine ⟨rfl, fun m node hm => ?_⟩
  have hne : m ≠ l := by
    rintro rfl
    rw [h] at hm
    cases hm
  rw [get?_put (ne_nil_of_get? h), if_neg hne, hm]

theorem Leads.of_isPart (h : t.Leads links here steps l) (hpart : t.IsPart u) :
    u.Leads links here steps l := by
  induction h with
  | done => exact .done
  | stay directory _ ih => exact .stay (hpart.get? _ _ directory) ih
  | up directory _ ih => exact .up (hpart.get? _ _ directory) ih
  | enter directory plain entry noLink _ ih =>
    exact .enter (hpart.get? _ _ directory) plain (hpart.get? _ _ entry) noLink ih
  | follow directory plain entry somewhere _ ih =>
    exact .follow (hpart.get? _ _ directory) plain (hpart.get? _ _ entry) somewhere ih

/-- A path that leads to something leads to it in a larger tree. -/
theorem locate_of_isPart (h : t.IsPart u) (hp : t.locate true p = .ok l) (hl : t.get? l ≠ none) :
    u.locate true p = .ok l := by
  unfold locate at *
  split at hp
  · cases hp
  · unfold origin at *
    rw [h.here]
    exact ((leads_of_walk hp hl).of_isPart h).walk_eq

/-! ## Spots -/

/-- A spot for an entry is a plain name in a directory that is there. -/
theorem spotOfSteps_eq_ok_iff :
    t.spotOfSteps here steps = .ok l ↔
      ∃ front step place, steps = front ++ [step] ∧ t.Leads maxLinks here front place ∧
        t.get? place = some .directory ∧ IsPlainStep step ∧ l = place ++ [step] := by
  unfold spotOfSteps
  constructor
  · intro h
    split at h
    · cases h
    rename_i step hlast
    split at h
    · cases h
    rename_i place hwalk
    split at h
    · cases h
    · next directory =>
      split at h
      · cases h
      rename_i hdots
      split at h
      · cases h
      rename_i hlength
      obtain ⟨front, rfl⟩ := List.getLast?_eq_some_iff.mp hlast
      rw [List.dropLast_concat] at hwalk
      rw [not_or] at hdots
      have hleads : t.Leads maxLinks here front place := by
        apply leads_of_walk hwalk
        rw [directory]
        exact Option.some_ne_none _
      exact ⟨front, step, place, rfl, hleads, directory,
        ⟨hdots.1, hdots.2, Nat.le_of_not_lt hlength⟩, (Except.ok.inj h).symm⟩
    · cases h
  · rintro ⟨front, step, place, rfl, hleads, directory, plain, rfl⟩
    rw [List.getLast?_concat, List.dropLast_concat]
    simp only [hleads.walk_eq, directory, if_neg (not_or.mpr ⟨plain.not_dot, plain.not_dotdot⟩),
      if_neg (Nat.not_lt_of_le plain.length_le)]

theorem spot_eq_ok_iff :
    t.spot p = .ok l ↔ pathFault? p = none ∧ t.spotOfSteps (t.origin p) p.steps = .ok l := by
  unfold spot
  cases pathFault? p with
  | none => simp
  | some fault => simp

theorem entrySpot_eq_ok_iff :
    t.entrySpot p = .ok l ↔ pathFault? p = none ∧ t.spotOfSteps (t.origin p) p.names = .ok l := by
  unfold entrySpot
  cases pathFault? p with
  | none => simp
  | some fault => simp

theorem spotOfSteps_append_dot : t.spotOfSteps here (steps ++ [dot]) ≠ .ok l := by
  intro h
  obtain ⟨front, step, place, hsteps, -, -, plain, -⟩ := spotOfSteps_eq_ok_iff.mp h
  exact plain.not_dot (List.cons.inj (List.append_inj' hsteps rfl).2).1.symm

theorem spot_eq_ok_iff_entrySpot :
    t.spot p = .ok l ↔ p.endsInSlash = false ∧ t.entrySpot p = .ok l := by
  rw [spot_eq_ok_iff, entrySpot_eq_ok_iff, Path.steps]
  cases p.endsInSlash with
  | false => simp
  | true => simpa using fun _ => spotOfSteps_append_dot

theorem ne_nil_of_entrySpot (h : t.entrySpot p = .ok l) : l ≠ [] := by
  obtain ⟨-, h⟩ := entrySpot_eq_ok_iff.mp h
  obtain ⟨front, step, place, -, -, -, -, rfl⟩ := spotOfSteps_eq_ok_iff.mp h
  exact List.append_ne_nil_of_right_ne_nil _ (List.cons_ne_nil _ _)

theorem ne_nil_of_spot (h : t.spot p = .ok l) : l ≠ [] :=
  ne_nil_of_entrySpot (spot_eq_ok_iff_entrySpot.mp h).2

theorem entrySpot_of_isPart (h : t.IsPart u) (hp : t.entrySpot p = .ok l) :
    u.entrySpot p = .ok l := by
  obtain ⟨hfault, hspot⟩ := entrySpot_eq_ok_iff.mp hp
  obtain ⟨front, step, place, hsteps, hleads, directory, plain, rfl⟩ :=
    spotOfSteps_eq_ok_iff.mp hspot
  refine entrySpot_eq_ok_iff.mpr ⟨hfault, spotOfSteps_eq_ok_iff.mpr ⟨front, step, place, hsteps,
    ?_, h.get? _ _ directory, plain, rfl⟩⟩
  unfold origin at *
  rw [h.here]
  exact hleads.of_isPart h

theorem spot_of_isPart (h : t.IsPart u) (hp : t.spot p = .ok l) : u.spot p = .ok l := by
  rw [spot_eq_ok_iff_entrySpot] at *
  exact ⟨hp.1, entrySpot_of_isPart h hp.2⟩

theorem locate_of_entrySpot (hp : t.entrySpot p = .ok l) (hl : t.get? l = some .directory) :
    t.locate true p = .ok l := by
  obtain ⟨hfault, hspot⟩ := entrySpot_eq_ok_iff.mp hp
  obtain ⟨front, step, place, hsteps, hleads, directory, plain, rfl⟩ :=
    spotOfSteps_eq_ok_iff.mp hspot
  have hwalk := (hleads.concat directory plain hl fun _ => FileNode.noConfusion).walk_eq
  rw [← hsteps] at hwalk
  unfold locate
  rw [hfault, Path.steps]
  cases p.endsInSlash with
  | false => simpa using hwalk
  | true => exact walk_append_dot_iff.mpr ⟨hwalk, beq_iff_eq.mpr hl⟩

/-- An entry is at a path if one is at its spot. -/
theorem isOccupied_of_spot (h : t.spot p = .ok l) : t.isOccupied p = (t.get? l).isSome := by
  obtain ⟨hfault, hspot⟩ := spot_eq_ok_iff.mp h
  obtain ⟨front, step, place, hsteps, hleads, directory, plain, rfl⟩ :=
    spotOfSteps_eq_ok_iff.mp hspot
  simp only [isOccupied, locate, hfault, hsteps, hleads.walk_concat directory plain]

/-! ## Directories that are made -/

theorem GrowsAt.refl (P : Path → Prop) (t : FileTree) : GrowsAt P t t :=
  ⟨.refl t, fun _ h => .inl h⟩

theorem GrowsAt.trans (h : GrowsAt P t u) (h' : GrowsAt P u v) : GrowsAt P t v := by
  refine ⟨h.isPart.trans h'.isPart, fun l hl => ?_⟩
  rcases h.new l hl with hu | ⟨hu, p, hp, hlocate⟩
  · exact h'.new l hu
  · refine .inr ⟨h'.isPart.get? l _ hu, p, hp, locate_of_isPart h'.isPart hlocate ?_⟩
    rw [hu]
    exact Option.some_ne_none _

theorem GrowsAt.mono (h : GrowsAt P t u) (hPQ : ∀ p, P p → Q p) : GrowsAt Q t u := by
  refine ⟨h.isPart, fun l hl => ?_⟩
  rcases h.new l hl with hu | ⟨hu, p, hp, hlocate⟩
  · exact .inl hu
  · exact .inr ⟨hu, p, hPQ p hp, hlocate⟩

theorem makeDirectory_eq_ok (h : t.makeDirectory p = .ok u) :
    ∃ l, t.entrySpot p = .ok l ∧ t.get? l = none ∧ u = t.put l .directory := by
  unfold makeDirectory at h
  split at h
  · cases h
  · next l hspot =>
    split at h
    · cases h
    · next hnone => exact ⟨l, hspot, by simpa using hnone, (Except.ok.inj h).symm⟩

theorem growsAt_of_makeDirectory (h : t.makeDirectory p = .ok u) (hp : P p) : GrowsAt P t u := by
  obtain ⟨l, hspot, hnone, rfl⟩ := makeDirectory_eq_ok h
  have hl := ne_nil_of_entrySpot hspot
  have hpart := isPart_put hnone .directory
  refine ⟨hpart, fun m hm => ?_⟩
  by_cases hml : m = l
  · subst hml
    have hget : (t.put m .directory).get? m = some .directory := by rw [get?_put hl, if_pos rfl]
    exact .inr ⟨hget, p, hp, locate_of_entrySpot (entrySpot_of_isPart hpart hspot) hget⟩
  · left
    rw [get?_put hl, if_neg hml, hm]

/-- Whether it fails or not, making directories adds some on the way and nothing else. -/
theorem growsAt_makeDirectories (t : FileTree) (p : Path) :
    GrowsAt (·.IsOver p) t (t.makeDirectories p).1 := by
  fun_induction makeDirectories t p with
  | case1 => exact .refl _ t
  | case2 p _ u hmake => exact growsAt_of_makeDirectory hmake .refl
  | case3 => exact .refl _ t
  | case4 => exact .refl _ t
  | case5 p _ _ _ _ q hparent u fault hrest ih =>
    rw [hrest] at ih
    exact ih.mono fun r => .head hparent
  | case6 p _ _ _ _ q hparent u hrest v hmake ih =>
    rw [hrest] at ih
    exact (ih.mono fun r => .head hparent).trans (growsAt_of_makeDirectory hmake .refl)
  | case7 p _ _ _ _ q hparent u hrest _ _ ih =>
    rw [hrest] at ih
    exact ih.mono fun r => .head hparent

end

end FileTree

end HostLookup
