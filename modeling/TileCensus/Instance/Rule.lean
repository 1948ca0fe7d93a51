/-!
# Scanning rules

A rule names a file of instance lines, the keywords to look for in it, how many tokens after a
keyword its tile stands, and the bitmap the tile is marked in.
-/

namespace TileCensus.Instance

/-! ## Categories -/

/-- The bitmaps that instance lines are scanned into. -/
inductive Category where
  | actor
  | spawn
  | projectile
  | screen
deriving DecidableEq, Repr

namespace Category

/-- Every category, in order. -/
def all : List Category := [.actor, .spawn, .projectile, .screen]

/-- The name of a category in a rules file. -/
def label : Category → String
  | actor => "actor"
  | spawn => "spawn"
  | projectile => "projectile"
  | screen => "screen"

/-- The category with a name. -/
def ofLabel? (label : String) : Option Category := all.find? fun category => category.label = label

/-- The name of a category's bitmap. -/
def stem : Category → String
  | actor => "actor_tiles"
  | spawn => "spawned_tiles"
  | projectile => "projectiles"
  | screen => "screen_tiles"

end Category

/-! ## Rules -/

/-- How one file of instance lines is scanned. An offset of one is the token right after the
keyword. -/
structure Rule where
  file : String
  keywords : List String
  offset : Nat
  category : Category
deriving DecidableEq, Repr

/-- The rules that apply when no rules file is given. -/
def Rule.defaults : List Rule :=
  [⟨"actor_instances.txt", ["actor"], 1, .actor⟩,
   ⟨"useractor_instances.txt", ["useractor"], 2, .actor⟩,
   ⟨"spawn_instances.txt", ["spawn", "espawn", "qspawn", "eqspawn", "spawnvar"], 1, .spawn⟩,
   ⟨"cactor_lines.txt", ["cactor"], 1, .spawn⟩,
   ⟨"projectile_instances.txt", ["defineprojectile"], 1, .projectile⟩,
   ⟨"myospal.txt", ["myospal", "myospalx"], 3, .screen⟩,
   ⟨"rotatesprite.txt", ["rotatesprite", "rotatespritea"], 5, .screen⟩]

end TileCensus.Instance
