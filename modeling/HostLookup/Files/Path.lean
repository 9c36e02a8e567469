import HostLookup.Bytes

/-!
# File paths

A path is its text, but two paths are the same when their components are:
repeated slashes, a slash at the end and every `.` but a leading one do not
count. `steps` is what a walk through directories does, where a slash at the
end still demands a directory.
-/

namespace HostLookup

open Bytes

def slash : UInt8 := 47

def dot : Bytes := ascii "."

def dotdot : Bytes := ascii ".."

structure Path where
  text : Bytes
  deriving DecidableEq, Repr, Inhabited

inductive Component where
  | root
  | here
  | up
  | name (text : Bytes)
  deriving DecidableEq, Repr

namespace Component

/-- The component of a piece between slashes; empty pieces and `.` are none. -/
def ofPiece? (piece : Bytes) : Option Component :=
  if piece.isEmpty || piece == dot then none
  else if piece == dotdot then some up
  else some (name piece)

end Component

namespace Path

def isAbsolute (p : Path) : Bool := p.text.head? == some slash

/-- The root of an absolute path, or a `.` in front. -/
def front (p : Path) : List Component :=
  if p.isAbsolute then [.root]
  else if (splitOn slash p.text).head? == some dot then [.here]
  else []

def components (p : Path) : List Component :=
  p.front ++ (splitOn slash p.text).filterMap Component.ofPiece?

def same (p q : Path) : Bool := p.components == q.components

theorem same_iff {p q : Path} : p.same q = true ↔ p.components = q.components := by
  simp [same]

@[simp] theorem same_refl (p : Path) : p.same p = true := by simp [same]

/-- The pieces up to the last one that is a component. -/
def upToComponent (pieces : List Bytes) : List Bytes :=
  (pieces.reverse.dropWhile (Component.ofPiece? · |>.isNone)).reverse

/--
The text up to the end of the component before the last one; a path without components, or with the
root alone, has none.
-/
def parent? (p : Path) : Option Path :=
  let pieces := upToComponent (splitOn slash p.text)
  if pieces = [] then if p.front = [.here] then some ⟨[]⟩ else none
  else
    match upToComponent pieces.dropLast with
    | [] => some ⟨p.text.take p.front.length⟩
    | kept => some ⟨[slash].intercalate kept⟩

def fileName? (p : Path) : Option Bytes :=
  match p.components.getLast? with
  | some (.name text) => some text
  | _ => none

def endsInSlash (p : Path) : Bool := p.text.getLast? == some slash

/-- The names to walk through to the entry itself. -/
def names (p : Path) : List Bytes := (splitOn slash p.text).filter (!·.isEmpty)

/-- The steps of a walk; a slash at the end asks for the directory itself. -/
def steps (p : Path) : List Bytes := p.names ++ if p.endsInSlash then [dot] else []

/-! ## Parents -/

section

variable {p q : Path} {pieces : List Bytes}

theorem filterMap_upToComponent (pieces : List Bytes) :
    (upToComponent pieces).filterMap Component.ofPiece? =
      pieces.filterMap Component.ofPiece? := by
  have idle : ∀ ps : List Bytes, (ps.dropWhile (Component.ofPiece? · |>.isNone)).filterMap
      Component.ofPiece? = ps.filterMap Component.ofPiece? := by
    intro ps
    induction ps with
    | nil => rfl
    | cons piece ps ih =>
      rw [List.dropWhile_cons]
      split
      · next h => rw [ih, List.filterMap_cons_none (by simpa using h)]
      · rfl
  rw [upToComponent, List.filterMap_reverse, idle, ← List.filterMap_reverse, List.reverse_reverse]

theorem upToComponent_isPrefix (pieces : List Bytes) : upToComponent pieces <+: pieces := by
  have h := List.reverse_prefix.mpr (List.dropWhile_suffix (l := pieces.reverse)
    (Component.ofPiece? · |>.isNone))
  rwa [List.reverse_reverse] at h

theorem upToComponent_ne_nil (h : upToComponent pieces ≠ []) :
    ∃ ps last c, upToComponent pieces = ps ++ [last] ∧ Component.ofPiece? last = some c := by
  unfold upToComponent at *
  cases hrest : pieces.reverse.dropWhile (Component.ofPiece? · |>.isNone) with
  | nil => simp [hrest] at h
  | cons last ps =>
    have hlast := List.head?_dropWhile_not (Component.ofPiece? · |>.isNone) pieces.reverse
    rw [hrest] at hlast
    obtain ⟨c, hc⟩ := Option.isSome_iff_exists.mp (by simpa using hlast)
    exact ⟨ps.reverse, last, c, List.reverse_cons, hc⟩

theorem components_take_front (p : Path) :
    components ⟨p.text.take p.front.length⟩ = p.front := by
  unfold front
  split
  · next habsolute =>
    obtain ⟨rest, htext⟩ := List.head?_eq_some_iff.mp (beq_iff_eq.mp habsolute)
    rw [htext]
    rfl
  · split
    · next hdot =>
      obtain ⟨pieces, hpieces⟩ := List.head?_eq_some_iff.mp (beq_iff_eq.mp hdot)
      have htext : [slash].intercalate (splitOn slash p.text) = p.text :=
        List.intercalate_splitOn slash
      rw [hpieces] at htext
      rw [← htext]
      cases pieces with
      | nil => rfl
      | cons => rfl
    · rfl

theorem intercalate_isPrefix (sep : Bytes) {xs ys : List Bytes} (h : xs <+: ys) :
    sep.intercalate xs <+: sep.intercalate ys := by
  induction xs generalizing ys with
  | nil => exact List.nil_prefix
  | cons x xs ih =>
    obtain ⟨zs, rfl⟩ := h
    cases xs with
    | nil =>
      cases zs with
      | nil => exact List.prefix_refl _
      | cons z zs =>
        rw [List.singleton_append, List.intercalate_cons_cons, List.append_assoc,
          List.intercalate_singleton]
        exact List.prefix_append _ _
    | cons x' xs =>
      simp only [List.cons_append, List.intercalate_cons_cons] at ih ⊢
      exact (List.prefix_append_right_inj _).mpr (ih ⟨zs, rfl⟩)

/-- The text of the first pieces of a path that end in a component. -/
theorem components_intercalate {ps : List Bytes} {last : Bytes} {c : Component}
    (hfirst : ps ++ [last] <+: splitOn slash p.text)
    (hc : Component.ofPiece? last = some c) :
    components ⟨[slash].intercalate (ps ++ [last])⟩ =
        p.front ++ (ps ++ [last]).filterMap Component.ofPiece? ∧
      [slash].intercalate (ps ++ [last]) <+: p.text := by
  have hne : ps ++ [last] ≠ [] := List.append_ne_nil_of_right_ne_nil _ (List.cons_ne_nil _ _)
  have hcut := List.splitOn_intercalate slash
    (fun piece hpiece => not_mem_of_mem_splitOn (hfirst.mem hpiece)) hne
  have htext := intercalate_isPrefix [slash] hfirst
  rw [List.intercalate_splitOn] at htext
  refine ⟨?_, htext⟩
  rw [components, hcut]
  congr 1
  -- the text has a first byte, since its last piece has one
  have hempty : [slash].intercalate (ps ++ [last]) ≠ [] := by
    intro hempty
    rw [hempty, List.splitOn_nil] at hcut
    have hlast := congrArg List.getLast? hcut
    rw [List.getLast?_concat] at hlast
    cases Option.some.inj hlast
    cases hc
  have habsolute : isAbsolute ⟨[slash].intercalate (ps ++ [last])⟩ = p.isAbsolute := by
    obtain ⟨b, text, hb⟩ := List.exists_cons_of_ne_nil hempty
    obtain ⟨rest, hrest⟩ := htext
    rw [isAbsolute, isAbsolute, ← hrest, hb]
    rfl
  have hhead : (ps ++ [last]).head? = (splitOn slash p.text).head? := by
    obtain ⟨pieces, hpieces⟩ := hfirst
    obtain ⟨piece, rest, hrest⟩ := List.exists_cons_of_ne_nil hne
    rw [← hpieces, hrest]
    rfl
  rw [front, front, habsolute, hcut, hhead]

/-- A parent has all components but the last, and its text is the front of the path's. -/
theorem parent?_eq_some (h : p.parent? = some q) :
    p.components ≠ [] ∧ q.components = p.components.dropLast ∧ q.text <+: p.text := by
  have hnames := filterMap_upToComponent (splitOn slash p.text)
  unfold parent? at h
  simp only at h
  rw [components, ← hnames]
  split at h
  · next hnone =>
    rw [hnone, List.filterMap_nil, List.append_nil]
    split at h
    · next hfront =>
      cases h
      rw [hfront]
      exact ⟨List.cons_ne_nil _ _, rfl, List.nil_prefix⟩
    · cases h
  · next hsome =>
    obtain ⟨ps, last, c, hps, hc⟩ := upToComponent_ne_nil hsome
    have hfirst : upToComponent ps <+: splitOn slash p.text := by
      refine (upToComponent_isPrefix ps).trans (.trans ?_ (upToComponent_isPrefix _))
      rw [hps]
      exact List.prefix_append _ _
    rw [hps, List.filterMap_append, List.filterMap_cons_some hc, List.filterMap_nil,
      ← List.append_assoc, List.dropLast_concat, ← filterMap_upToComponent ps]
    rw [hps, List.dropLast_concat] at h
    refine ⟨List.append_ne_nil_of_right_ne_nil _ (List.cons_ne_nil _ _), ?_⟩
    split at h
    · next hnil =>
      cases h
      rw [hnil, List.filterMap_nil, List.append_nil, components_take_front]
      exact ⟨rfl, List.take_prefix _ _⟩
    · next hne =>
      cases h
      obtain ⟨qs, last', c', hqs, hc'⟩ := upToComponent_ne_nil hne
      rw [hqs] at hfirst ⊢
      exact components_intercalate hfirst hc'

theorem length_components_of_parent? (h : p.parent? = some q) :
    q.components.length < p.components.length := by
  obtain ⟨hne, hq, -⟩ := parent?_eq_some h
  have := List.length_pos_iff.mpr hne
  rw [hq, List.length_dropLast]
  omega

end

end Path

end HostLookup
