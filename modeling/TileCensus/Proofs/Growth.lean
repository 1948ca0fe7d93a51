import TileCensus.Census
import TileCensus.Proofs.TileSpace

/-!
# Censuses that mark no less

Two runs mark tiles in the same bitmaps, or in some more of them when a definitions file was given.
One marks no less than the other when each of its bitmaps has the tiles of the other's. That much
can be seen in what the two runs find: if every mark of one is found by the other, in a space that
is no smaller, then its bitmaps are within those of the other (`Survey.MarksWithin.census`).
-/

namespace TileCensus

open Tile

/-- The tiles of one bitmap are marked in another. -/
def Tile.Bitmap.IsWithin (first second : Bitmap) : Prop :=
  ∀ tile, first.isSet tile = true → second.isSet tile = true

/-! ## Findings -/

namespace Finding

variable {κ : Type} {first second third fourth : List (Finding κ)}

/-- The marks of one scan are found by another. -/
def MarksWithin (first second : List (Finding κ)) : Prop :=
  ∀ target range, mark target range ∈ first → mark target range ∈ second

theorem MarksWithin.append (front : MarksWithin first second) (back : MarksWithin third fourth) :
    MarksWithin (first ++ third) (second ++ fourth) := by
  intro target range mem
  rcases List.mem_append.mp mem with mem | mem
  · exact List.mem_append_left _ (front target range mem)
  · exact List.mem_append_right _ (back target range mem)

theorem MarksWithin.flatMap {α : Type} {items : List α} {find other : α → List (Finding κ)}
    (within : ∀ item ∈ items, MarksWithin (find item) (other item)) :
    MarksWithin (items.flatMap find) (items.flatMap other) := by
  intro target range mem
  obtain ⟨item, listed, mem⟩ := List.mem_flatMap.mp mem
  exact List.mem_flatMap.mpr ⟨item, listed, within item listed target range mem⟩

theorem MarksWithin.bitmap [DecidableEq κ] (within : MarksWithin first second)
    {narrow wide : Nat} (wider : narrow ≤ wide) (target : κ) :
    (bitmap narrow target first).IsWithin (bitmap wide target second) := by
  intro tile marked
  obtain ⟨range, mem, contains, inside⟩ := isSet_bitmap.mp marked
  exact isSet_bitmap.mpr ⟨range, within target range mem, contains, inside.trans_le wider⟩

end Finding

/-! ## Surveys and censuses -/

/-- The marks of one survey are found by another, pass by pass. -/
structure Survey.MarksWithin (first second : Survey) : Prop where
  frames : Finding.MarksWithin first.frames second.frames
  instances : Finding.MarksWithin first.instanceFindings second.instanceFindings
  definitions : Option.Rel Finding.MarksWithin first.definitions second.definitions

/-- Two censuses have bitmaps of the same names, and those of one are within those of the other. -/
def Census.MarksWithin (first second : Census) : Prop :=
  List.Forall₂ (fun bitmap other => bitmap.1 = other.1 ∧ bitmap.2.IsWithin other.2)
    first.bitmaps second.bitmaps

theorem Survey.MarksWithin.census {first second : Survey} (within : first.MarksWithin second)
    {narrow wide : Nat} (wider : narrow ≤ wide) (loading : List Diagnostic) :
    (first.census narrow loading).MarksWithin (second.census wide loading) := by
  refine List.rel_append (.cons ⟨rfl, within.frames.bitmap wider ()⟩ ?_) ?_
  · refine List.forall₂_map_left_iff.mpr (List.forall₂_map_right_iff.mpr ?_)
    refine List.forall₂_same.mpr fun category _ => ⟨rfl, ?_⟩
    simp only [Survey.census, Instance.Tiles.get_ofFindings]
    exact within.instances.bitmap wider category
  · have scanned := within.definitions
    simp only [Survey.census]
    generalize first.definitions = findings at scanned ⊢
    generalize second.definitions = others at scanned ⊢
    cases scanned with
    | none => exact .nil
    | some definitions =>
      refine List.forall₂_map_left_iff.mpr (List.forall₂_map_right_iff.mpr ?_)
      refine List.forall₂_same.mpr fun target _ => ⟨rfl, ?_⟩
      simp only [Definition.Tiles.get_ofFindings]
      exact definitions.bitmap wider target

/-- What a census says of symbols depends on the scripts alone. -/
theorem Corpus.symbols_of_scripts {corpus other : Corpus} (same : corpus.scripts = other.scripts)
    (loading : List Diagnostic) :
    (corpus.census loading).summary = (other.census loading).summary ∧
      (corpus.census loading).unusedActions = (other.census loading).unusedActions := by
  simp only [census, Survey.census, survey_tables, survey_resolution, same, and_self]

end TileCensus
