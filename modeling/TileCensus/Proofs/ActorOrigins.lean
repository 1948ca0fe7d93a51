import TileCensus.Proofs.Precedence

/-!
# The origins of actors

An actor is reported at its origin. A file gives an actor an origin in two ways: by a header line
with a strength and an initial action, wherever it stands, and by a keyword with which the token
pass opens the actor. Only the first counts, but the header lines of a file all come before its
token pass. So an actor that is opened by a short header and has a full one further down has the
place of the latter (`not_forall_getElem?_actorOrigins`), also if the token pass never gets there.

The law at the end says which place the origin is, and that it is where the actor is first opened
exactly if the first file that has the actor at all has no other full header before all others.
-/

namespace TileCensus.Script

/-! ## Full headers and openings -/

/-- The actor whose strength and initial action the words of a line give. -/
def headedActor? : List String → Option String
  | "actor" :: name :: strength :: action :: _ =>
    if isConstantLike strength && isConstantLike action then some name else none
  | "useractor" :: _ :: name :: strength :: action :: _ =>
    if isConstantLike strength && isConstantLike action then some name else none
  | _ => none

/-- The actors that the lines of a file give in full, with the places of the lines. -/
def headedActors (source : Source) : List (String × Location) :=
  (cleanedText source.text).filterMap fun (line, number) =>
    (headedActor? (words line)).map fun name => (name, ⟨source.path, number⟩)

/-- The actor that a round opens, with the place of the keyword. -/
def Round.openedActor? (path : String) (round : Round) : Option (String × Location) :=
  match round.step.outcome with
  | .ok (.opened ⟨.actor, name⟩) => some (name, ⟨path, round.keyword.line⟩)
  | _ => none

/-- The actors that the token pass over a file opens, in order. -/
def openedActors (source : Source) : List (String × Location) :=
  (roundsOf source).filterMap (Round.openedActor? source.path)

/-- The places that a file gives as origins, in the order in which they are looked at. -/
def origins (source : Source) : List (String × Location) :=
  headedActors source ++ openedActors source

/-! ## Origins among facts -/

theorem Header.filterMap_originChange? (origin : Location) (words : List String) :
    (((ofWords? words).map (facts origin)).getD []).filterMap Fact.originChange? =
      ((headedActor? words).map fun name => .fill name origin).toList := by
  fun_cases ofWords? words with
  | case5 name strength action rest constant =>
    rw [headedActor?, if_pos constant]
    cases actionName? action <;> rfl
  | case6 name strength action rest constant =>
    rw [headedActor?, if_neg constant]
    rfl
  | case7 kind name strength action rest constant =>
    rw [headedActor?, if_pos constant]
    cases actionName? action <;> rfl
  | case8 kind name strength action rest constant =>
    rw [headedActor?, if_neg constant]
    rfl
  | case9 => simp [headedActor?]
  | _ => rfl

/-- A directive says nothing of the origins of actors. -/
theorem Clause.filterMap_originChange?_of_directive {clause : Clause} {keyword : String}
    (directive : clause.directive? = some keyword) (origin : Location) :
    (clause.facts origin).filterMap Fact.originChange? = [] := by
  fun_cases Clause.facts origin clause with
  | case1 => cases directive
  | _ => rfl

theorem Round.filterMap_originChange? (path : String) (round : Round) :
    (round.facts path).filterMap Fact.originChange? =
      ((round.openedActor? path).map fun entry => .fill entry.1 entry.2).toList := by
  unfold Round.facts Round.clause? Round.openedActor?
  cases round.step.outcome with
  | error violation => rfl
  | ok transition =>
    cases transition with
    | opened scope =>
      obtain ⟨kind, name⟩ := scope
      cases kind <;> rfl
    | closed scope => rfl
    | called caller state =>
      obtain ⟨kind, name⟩ := caller
      cases kind <;> rfl
    | unchanged =>
      dsimp only
      cases made : (readDirective round.step.scopes round.keyword round.step.rest).1 with
      | none => rfl
      | some clause =>
        exact Clause.filterMap_originChange?_of_directive (readDirective_directive? made) _

theorem filterMap_originChange?_facts (source : Source) :
    (Reading.ofSource source).facts.filterMap Fact.originChange? =
      (origins source).map fun entry => .fill entry.1 entry.2 := by
  rw [facts_ofSource, List.filterMap_append, origins, List.map_append]
  unfold headerFacts headedActors openedActors
  rw [List.filterMap_flatMap, List.filterMap_flatMap, List.filterMap_eq_flatMap_toList,
    List.filterMap_eq_flatMap_toList, List.map_flatMap, List.map_flatMap]
  congr 1
  · refine List.flatMap_congr fun entry _ => ?_
    obtain ⟨line, number⟩ := entry
    dsimp only
    rw [Header.filterMap_originChange?]
    cases headedActor? (words line) <;> rfl
  · refine List.flatMap_congr fun round _ => ?_
    rw [Round.filterMap_originChange?]
    cases round.openedActor? source.path <;> rfl

/-- The origin of an actor is the first place that some file gives for it. -/
theorem getElem?_actorOrigins (sources : List Source) (actor : String) :
    (SymbolTables.ofSources sources).actorOrigins[actor]? =
      (sources.flatMap origins).lookup actor := by
  rw [SymbolTables.ofSources_eq,
    SymbolTables.getElem?_recordAll SymbolTables.actorOrigins_changedBy, List.filterMap_flatMap]
  simp only [filterMap_originChange?_facts]
  rw [← List.map_flatMap, List.filterMap_map, List.filterMap_map]
  simp [Function.comp_def, Change.put?, Change.fill?, SymbolTables.empty]

/-! ## Origins and first openings -/

theorem lookup_flatMap {α κ β : Type} [BEq κ] (items : List α) (entries : α → List (κ × β))
    (key : κ) :
    (items.flatMap entries).lookup key = items.findSome? fun item => (entries item).lookup key := by
  induction items with
  | nil => rfl
  | cons item items ih =>
    rw [List.flatMap_cons, List.lookup_append, ih, List.findSome?_cons]
    cases (entries item).lookup key <;> rfl

/-- What counts is the first file that has an entry. -/
theorem lookup_flatMap_of_first {α κ β : Type} [BEq κ] {before after : List α} {item : α}
    {entries : α → List (κ × β)} {key : κ}
    (absent : ∀ earlier ∈ before, (entries earlier).lookup key = none)
    (present : ((entries item).lookup key).isSome) :
    ((before ++ item :: after).flatMap entries).lookup key = (entries item).lookup key := by
  obtain ⟨value, found⟩ := Option.isSome_iff_exists.mp present
  rw [found, lookup_flatMap]
  exact List.findSome?_eq_some_iff.mpr ⟨before, item, after, rfl, found, absent⟩

variable {source : Source} {actor : String}

theorem lookup_origins : (origins source).lookup actor =
    ((headedActors source).lookup actor).or ((openedActors source).lookup actor) :=
  List.lookup_append

theorem lookup_origins_eq_none_iff : (origins source).lookup actor = none ↔
    (headedActors source).lookup actor = none ∧ (openedActors source).lookup actor = none := by
  rw [lookup_origins, Option.or_eq_none_iff]

/-- The first file that heads or opens an actor heads it, if at all, first at a place. -/
def HeadsFirstAt (sources : List Source) (actor : String) (location : Location) : Prop :=
  ∀ before source after, sources = before ++ source :: after →
    (∀ earlier ∈ before, (origins earlier).lookup actor = none) →
    ∀ place, (headedActors source).lookup actor = some place → place = location

theorem lookup_origins_eq_iff {sources : List Source} {location : Location}
    (opened : (sources.flatMap openedActors).lookup actor = some location) :
    (sources.flatMap origins).lookup actor = some location ↔
      HeadsFirstAt sources actor location := by
  constructor
  · rintro first before source after rfl absent place headed
    have found : (origins source).lookup actor = some place := by
      rw [lookup_origins, headed, Option.some_or]
    rw [lookup_flatMap_of_first absent (Option.isSome_of_eq_some found), found] at first
    exact Option.some_inj.mp first
  · intro agrees
    cases first : (sources.flatMap origins).lookup actor with
    | none =>
      -- a file without an origin for the actor does not open it either
      rw [lookup_flatMap, List.findSome?_eq_none_iff] at first
      rw [lookup_flatMap] at opened
      obtain ⟨source, mem, opens⟩ := List.exists_of_findSome?_eq_some opened
      rw [(lookup_origins_eq_none_iff.mp (first source mem)).2] at opens
      cases opens
    | some place =>
      rw [lookup_flatMap] at first
      obtain ⟨before, source, after, rfl, found, absent⟩ := List.findSome?_eq_some_iff.mp first
      congr 1
      cases headed : (headedActors source).lookup actor with
      | some other =>
        rw [lookup_origins, headed, Option.some_or] at found
        obtain rfl := Option.some_inj.mp found
        exact agrees before source after rfl absent other headed
      | none =>
        rw [lookup_origins, headed, Option.none_or] at found
        have unopened : ∀ earlier ∈ before, (openedActors earlier).lookup actor = none :=
          fun earlier mem => (lookup_origins_eq_none_iff.mp (absent earlier mem)).2
        rw [lookup_flatMap_of_first unopened (Option.isSome_of_eq_some found), found] at opened
        exact Option.some_inj.mp opened

/-- The origin of an actor is the first of the places that files give for it, the full headers of
a file before its openings. For an actor that is opened somewhere it is where that first happens,
exactly if the first file that has the actor at all does not begin with another full header. -/
theorem actorOrigins_ofSources (sources : List Source) (actor : String) :
    (SymbolTables.ofSources sources).actorOrigins[actor]? =
        (sources.flatMap fun source => headedActors source ++ openedActors source).lookup actor ∧
      ∀ location, (sources.flatMap openedActors).lookup actor = some location →
        ((SymbolTables.ofSources sources).actorOrigins[actor]? = some location ↔
          HeadsFirstAt sources actor location) := by
  refine ⟨getElem?_actorOrigins sources actor, fun location opened => ?_⟩
  rw [getElem?_actorOrigins]
  exact lookup_origins_eq_iff opened

/-- A file that opens an actor by a full header and opens it once more by a short one. -/
def fullHeaderFirst : Source := ⟨"a.con", "actor A 1 X\nenda\neventloadactor A\nenda\n"⟩

/-- A file that opens an actor by a short header and once more by a full one. -/
def fullHeaderLast : Source := ⟨"b.con", "eventloadactor A\nenda\nactor A 1 X\nenda\n"⟩

theorem origins_fullHeaderFirst :
    headedActors fullHeaderFirst = [("A", ⟨"a.con", 1⟩)] ∧
      openedActors fullHeaderFirst = [("A", ⟨"a.con", 1⟩), ("A", ⟨"a.con", 3⟩)] := by
  constructor <;> cbv

theorem origins_fullHeaderLast :
    headedActors fullHeaderLast = [("A", ⟨"b.con", 3⟩)] ∧
      openedActors fullHeaderLast = [("A", ⟨"b.con", 1⟩), ("A", ⟨"b.con", 3⟩)] := by
  constructor <;> cbv

/-- With the full header first the origin is the first opening, also where a later file has a short
header before its full one. -/
theorem actorOrigins_ofSources_fullHeaderFirst :
    let sources := [fullHeaderFirst, fullHeaderLast]
    (sources.flatMap openedActors).lookup "A" = some ⟨"a.con", 1⟩ ∧
      (SymbolTables.ofSources sources).actorOrigins["A"]? = some ⟨"a.con", 1⟩ := by
  intro sources
  obtain ⟨headed, opens⟩ := origins_fullHeaderFirst
  have opened : (sources.flatMap openedActors).lookup "A" = some ⟨"a.con", 1⟩ := by
    simp [sources, opens]
  refine ⟨opened, ((actorOrigins_ofSources sources "A").2 _ opened).mpr ?_⟩
  rintro before source after split absent place found
  cases before with
  | nil =>
    obtain ⟨rfl, -⟩ := List.cons_eq_cons.mp split
    rw [headed] at found
    exact (Option.some_inj.mp found).symm
  | cons earlier before =>
    -- every other file comes after one that has the actor
    obtain ⟨rfl, -⟩ := List.cons_eq_cons.mp split
    have absent := (lookup_origins_eq_none_iff.mp (absent _ List.mem_cons_self)).1
    rw [headed] at absent
    cases absent

/-- The origin of an actor is not always the first place at which it is opened. -/
theorem not_forall_getElem?_actorOrigins :
    ¬∀ (sources : List Source) (actor : String) (location : Location),
      (sources.flatMap openedActors).lookup actor = some location →
      (SymbolTables.ofSources sources).actorOrigins[actor]? = some location := by
  intro claim
  obtain ⟨headed, opens⟩ := origins_fullHeaderLast
  have opened : ([fullHeaderLast].flatMap openedActors).lookup "A" = some ⟨"b.con", 1⟩ := by
    simp [opens]
  have origin := claim _ _ _ opened
  rw [getElem?_actorOrigins] at origin
  simp [origins, headed] at origin

end TileCensus.Script
