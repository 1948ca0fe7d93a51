import TileCensus.Diagnostic
import TileCensus.Tile.Bitmap

/-!
# Findings

A scan of an input reads it from its beginning to its end and lists what it finds, in order:
problems to report, and ranges of tiles to mark in one of several bitmaps. Ranges are checked
against the size of the tile space when they are found, so a range in a list of findings lies in
the space. The diagnostics and the bitmaps of a scan are views of its findings.
-/

namespace TileCensus

open Tile

/-- One thing that a scan finds; `κ` names its bitmaps. -/
inductive Finding (κ : Type) where
  | problem (diagnostic : Diagnostic)
  | mark (target : κ) (range : Tile.Range)
deriving DecidableEq

namespace Finding

variable {κ : Type}

/-- The tiles of a range in a space of a size, or what a range that does not fit is reported as. -/
def ofRange (target : κ) (maxTiles : Nat) (report : RangeError → Diagnostic)
    (range : Except RangeError Tile.Range) : Finding κ :=
  match range.bind (·.within maxTiles) with
  | .ok range => mark target range
  | .error reason => problem (report reason)

theorem exists_report_of_ofRange {target : κ} {maxTiles : Nat} {report : RangeError → Diagnostic}
    {range : Except RangeError Tile.Range} {diagnostic : Diagnostic}
    (found : ofRange target maxTiles report range = problem diagnostic) :
    ∃ reason, diagnostic = report reason := by
  unfold ofRange at found
  split at found
  next => cases found
  next reason _ =>
    cases found
    exact ⟨reason, rfl⟩

/-- The problems among findings. -/
def diagnostics (findings : List (Finding κ)) : List Diagnostic :=
  findings.filterMap fun
    | problem diagnostic => some diagnostic
    | mark .. => none

theorem mem_diagnostics_iff {diagnostic : Diagnostic} {findings : List (Finding κ)} :
    diagnostic ∈ diagnostics findings ↔ problem diagnostic ∈ findings := by
  rw [diagnostics, List.mem_filterMap]
  constructor
  · rintro ⟨finding, mem, found⟩
    cases finding with
    | problem other =>
      obtain rfl := Option.some_inj.mp found
      exact mem
    | mark target range => cases found
  · exact fun mem => ⟨_, mem, rfl⟩

theorem diagnostics_append (first second : List (Finding κ)) :
    diagnostics (first ++ second) = diagnostics first ++ diagnostics second :=
  List.filterMap_append

theorem diagnostics_flatMap {α : Type} (items : List α) (find : α → List (Finding κ)) :
    diagnostics (items.flatMap find) = items.flatMap fun item => diagnostics (find item) :=
  List.filterMap_flatMap

theorem diagnostics_map_problem (problems : List Diagnostic) :
    diagnostics (problems.map problem : List (Finding κ)) = problems := by
  rw [diagnostics, List.filterMap_map]
  exact List.filterMap_some

/-- The number of marks among findings. -/
def markCount (findings : List (Finding κ)) : Nat :=
  findings.countP fun
    | problem _ => false
    | mark .. => true

/-- The ranges to be marked in one bitmap. -/
def ranges [DecidableEq κ] (target : κ) (findings : List (Finding κ)) : List Tile.Range :=
  findings.filterMap fun
    | problem _ => none
    | mark other range => if other = target then some range else none

/-- A bitmap with the ranges found for it marked. -/
def markIn [DecidableEq κ] (bitmap : Bitmap) (target : κ) (findings : List (Finding κ)) : Bitmap :=
  (ranges target findings).foldl Bitmap.fill bitmap

/-- The bitmap that findings make in a space of a size. -/
def bitmap [DecidableEq κ] (maxTiles : Nat) (target : κ) (findings : List (Finding κ)) : Bitmap :=
  markIn (Bitmap.blank maxTiles) target findings

end Finding
end TileCensus
