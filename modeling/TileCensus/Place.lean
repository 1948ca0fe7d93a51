/-!
# Places

A place is where a file or a directory is: the names on the way to it from the root of everything.
It carries its depth, which tells most places apart without a look at their names, and places are
ordered by depth first. So whatever is in a directory comes after it.
-/

namespace TileCensus

/-- The names on the way to a file or a directory, with their number. -/
structure Place where
  depth : Nat
  names : List String
  depth_eq : depth = names.length
deriving DecidableEq, Repr

namespace Place

theorem ext_names {a b : Place} (h : a.names = b.names) : a = b := by
  obtain ⟨_, _, rfl⟩ := a
  obtain ⟨_, _, rfl⟩ := b
  cases h
  rfl

/-! ## Ways between places -/

/-- The place that names lead to from the root of everything. -/
def ofNames (names : List String) : Place := ⟨names.length, names, rfl⟩

/-- The place of the root of everything. -/
def root : Place := ofNames []

/-- The place that names lead to from another place. -/
def below (place : Place) (names : List String) : Place := ofNames (place.names ++ names)

/-- The place of what has a name in the directory at a place. -/
def child (place : Place) (name : String) : Place :=
  ⟨place.depth + 1, place.names ++ [name], by simp [place.depth_eq]⟩

/-- The place of the directory that something at a place is in. The root is in itself. -/
def parent (place : Place) : Place :=
  ⟨place.depth - 1, place.names.dropLast, by simp [place.depth_eq]⟩

/-- Where a part of a path leads from the directory at a place: a dot stays there, two go to the
directory that it is in, and all else is the name of something in it. -/
def next (place : Place) (part : String) : Place :=
  if part = "." then place else if part = ".." then place.parent else place.child part

@[simp]
theorem names_ofNames (names : List String) : (ofNames names).names = names := rfl

@[simp]
theorem names_below (place : Place) (names : List String) :
    (place.below names).names = place.names ++ names := rfl

@[simp]
theorem below_nil (place : Place) : place.below [] = place := ext_names (by simp)

theorem below_cons (place : Place) (name : String) (names : List String) :
    place.below (name :: names) = (place.child name).below names :=
  ext_names (by simp [child])

@[simp]
theorem parent_child (place : Place) (name : String) : (place.child name).parent = place :=
  ext_names (by simp [child, parent])

theorem child_ne_root (place : Place) (name : String) : place.child name ≠ root := by
  intro same
  have names : place.names ++ [name] = [] := congrArg Place.names same
  simp at names

theorem child_injective (place : Place) : Function.Injective place.child := by
  intro first second same
  have names : place.names ++ [first] = place.names ++ [second] := congrArg Place.names same
  exact List.singleton_inj.mp (List.append_cancel_left names)

theorem parent_ne {place : Place} (h : place ≠ root) : place.parent ≠ place := by
  intro same
  have shorter := congrArg (·.names.length) same
  have : place.names ≠ [] := fun none => h (ext_names none)
  have := List.length_pos_iff.mpr this
  simp only [parent, List.length_dropLast] at shorter
  omega

theorem depth_lt_of_prefix {place other : Place} (within : place.names <+: other.names)
    (different : other ≠ place) : place.depth < other.depth := by
  rw [place.depth_eq, other.depth_eq]
  refine Nat.lt_of_le_of_ne within.length_le fun same => different ?_
  exact ext_names (within.eq_of_length same).symm

/-! ## Order -/

instance : Ord Place where
  compare := compareLex (compareOn (·.depth)) (compareOn (·.names))

instance : Std.TransOrd Place :=
  inferInstanceAs (Std.TransCmp (compareLex (compareOn Place.depth) (compareOn Place.names)))

instance : Std.LawfulEqOrd Place where
  eq_of_compare {a b} h := by
    have both := Ordering.then_eq_eq.mp (h : (compare a.depth b.depth).then
      (compare a.names b.names) = .eq)
    exact ext_names (Std.LawfulEqCmp.eq_of_compare both.2)

end Place
end TileCensus
