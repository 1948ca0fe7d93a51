import TileCensus.Instance.Scan
import TileCensus.Proofs.TileSpace

/-!
# Occurrences of keywords

An occurrence is a token of a cleaned line that is a keyword of the line's rule. What becomes of it
is said by a relation with one rule for each way (`Treats`), without the order in which scanning
tries them. Each occurrence is treated in one way only, and scanning a list of files of instance
lines does this for every occurrence and nothing else (`scan_exact`): what it reports are the
problems of the occurrences, one after the other, and what it marks are the tiles of the others.
-/

namespace TileCensus.Instance

open Text Tile

/-! ## Names in tokens -/

/-- A token is a name and, after it, an index in brackets. -/
def HasIndex (token name : String) : Prop :=
  ∃ digits : List Char, digits ≠ [] ∧ (∀ c ∈ digits, isDecimalDigit c = true) ∧
    token.toList = name.toList ++ '[' :: (digits ++ [']'])

/-- The name in a token: what stands before its index, or the token if it has none. -/
def Names (token name : String) : Prop :=
  HasIndex token name ∨ name = token ∧ ∀ other, ¬HasIndex token other

theorem dropIndex?_eq_some_iff {token name : List Char} :
    dropIndex? token = some name ↔
      ∃ digits, digits ≠ [] ∧ (∀ c ∈ digits, isDecimalDigit c = true) ∧
        token = ']' :: (digits ++ '[' :: name) := by
  have split : dropIndex? token = some name ↔ ∃ rest, token = ']' :: rest ∧
      rest.takeWhile isDecimalDigit ≠ [] ∧ rest.dropWhile isDecimalDigit = '[' :: name := by
    unfold dropIndex?
    split
    next rest =>
      simp only [List.cons.injEq, true_and, exists_eq_left']
      cases rest.takeWhile isDecimalDigit with
      | nil => simp
      | cons first digits => split <;> simp_all
    next other => simpa using fun rest written => (other rest written).elim
  rw [split]
  constructor
  · rintro ⟨rest, rfl, indexed⟩
    obtain ⟨digits, nonempty, all, rfl⟩ := (exists_run_iff (by decide)).mp indexed
    exact ⟨digits, nonempty, all, rfl⟩
  · rintro ⟨digits, nonempty, all, rfl⟩
    exact ⟨_, rfl, (exists_run_iff (by decide)).mpr ⟨digits, nonempty, all, rfl⟩⟩

theorem dropIndex?_reverse_eq_some_iff {token name : String} :
    dropIndex? token.toList.reverse = some name.toList.reverse ↔ HasIndex token name := by
  rw [dropIndex?_eq_some_iff]
  constructor
  · rintro ⟨digits, nonempty, all, written⟩
    refine ⟨digits.reverse, by simpa using nonempty, by simpa using all, ?_⟩
    rw [← token.toList.reverse_reverse, written]
    simp
  · rintro ⟨digits, nonempty, all, written⟩
    refine ⟨digits.reverse, by simpa using nonempty, by simpa using all, ?_⟩
    rw [written]
    simp

theorem names_iff {token name : String} : Names token name ↔ name = stripIndex token := by
  rw [Names, stripIndex]
  cases dropped : dropIndex? token.toList.reverse with
  | none =>
    have plain : ∀ other, ¬HasIndex token other := fun other indexed => by
      rw [← dropIndex?_reverse_eq_some_iff, dropped] at indexed
      cases indexed
    simp [plain]
  | some back =>
    have indexed_iff (other : String) :
        HasIndex token other ↔ other = String.ofList back.reverse := by
      rw [← dropIndex?_reverse_eq_some_iff, dropped, Option.some.injEq, ← List.reverse_eq_iff,
        ← String.toList_inj, String.toList_ofList, eq_comm]
    simp [indexed_iff]

/-! ## Occurrences -/

/-- A position among the tokens of a cleaned line of a file. -/
structure Occurrence where
  source : Source
  number : Nat
  line : List Char
  position : Nat

namespace Occurrence

def rule (occurrence : Occurrence) : Rule := occurrence.source.rule

def location (occurrence : Occurrence) : Location := ⟨occurrence.source.path, occurrence.number⟩

def text (occurrence : Occurrence) : String := String.ofList occurrence.line

def token? (occurrence : Occurrence) (position : Nat) : Option String :=
  ((fields occurrence.line).map String.ofList)[position]?

/-- An earlier line, or an earlier token of the same line. -/
def Before (first second : Occurrence) : Prop :=
  first.number < second.number ∨
    first.number = second.number ∧ first.position < second.position

/-- The token that stands at the rule's offset after the keyword. -/
def argument? (occurrence : Occurrence) : Option String :=
  occurrence.token? (occurrence.position + occurrence.rule.offset)

end Occurrence

/-- The positions of keywords among tokens, in order. -/
def positions (rule : Rule) (tokens : List String) : List Nat :=
  (tokens.zipIdx.filter fun (token, _) => token ∈ rule.keywords).map (·.2)

/-- The occurrences in files: file after file, line after line and token after token. -/
def occurrences (sources : List Source) : List Occurrence :=
  sources.flatMap fun source =>
    (numbered (lines source.text)).flatMap fun (line, number) =>
      (positions source.rule ((fields (clean line)).map String.ofList)).map fun position =>
        ⟨source, number, clean line, position⟩

theorem mem_positions_iff {rule : Rule} {tokens : List String} {position : Nat} :
    position ∈ positions rule tokens ↔
      ∃ keyword ∈ rule.keywords, tokens[position]? = some keyword := by
  simp only [positions, List.mem_map, List.mem_filter, Prod.exists, List.mk_mem_zipIdx_iff_getElem?,
    decide_eq_true_eq, exists_eq_right]
  exact exists_congr fun token => and_comm

theorem positions_ascending (rule : Rule) (tokens : List String) :
    (positions rule tokens).Pairwise (· < ·) := by
  have sublist := (tokens.zipIdx.filter_sublist (p := fun entry => entry.1 ∈ rule.keywords)).map
    Prod.snd
  rw [List.zipIdx_map_snd] at sublist
  exact List.Pairwise.sublist sublist List.pairwise_lt_range'

/-- The occurrences are the keywords on the cleaned lines, wherever they stand. -/
theorem mem_occurrences_iff {sources : List Source} {occurrence : Occurrence} :
    occurrence ∈ occurrences sources ↔
      occurrence.source ∈ sources ∧
        (∃ raw, 1 ≤ occurrence.number ∧
          (lines occurrence.source.text)[occurrence.number - 1]? = some raw ∧
          occurrence.line = clean raw) ∧
        ∃ keyword ∈ occurrence.rule.keywords,
          occurrence.token? occurrence.position = some keyword := by
  obtain ⟨source, number, line, position⟩ := occurrence
  simp only [occurrences, numbered, List.mem_flatMap, Prod.exists, List.mem_map, mem_positions_iff,
    List.mk_mem_zipIdx_iff_le_and_getElem?_sub, Occurrence.mk.injEq, Occurrence.rule,
    Occurrence.token?]
  grind

theorem pairwise_occurrences (source : Source) :
    (occurrences [source]).Pairwise Occurrence.Before := by
  have numbers : (numbered (lines source.text)).Pairwise fun a b => a.2 < b.2 := by
    rw [← List.pairwise_map (f := Prod.snd) (R := (· < ·)), numbered, List.zipIdx_map_snd]
    exact List.pairwise_lt_range'
  rw [occurrences, List.flatMap_singleton, List.pairwise_flatMap]
  refine ⟨fun entry _ => ?_, numbers.imp fun before a mem b mem' => ?_⟩
  · refine List.pairwise_map.mpr ((positions_ascending _ _).imp fun before => ?_)
    exact .inr ⟨rfl, before⟩
  · obtain ⟨_, _, rfl⟩ := List.mem_map.mp mem
    obtain ⟨_, _, rfl⟩ := List.mem_map.mp mem'
    exact .inl before

/-! ## Outcomes -/

/-- What becomes of an occurrence. -/
inductive Outcome where
  | problem (diagnostic : Diagnostic)
  | silent
  | mark (category : Category) (tile : Nat)

/-- What an occurrence has to report. -/
def Outcome.diagnostic? : Outcome → Option Diagnostic
  | problem diagnostic => some diagnostic
  | silent | mark .. => none

/-- An occurrence is treated in a way. The conditions exclude each other and are not looked at in
any order: a variable is silent whatever else its name stands for. -/
inductive Treats (lookup : Lookup) (occurrence : Occurrence) : Outcome → Prop where
  | missing (ended : occurrence.argument? = none) :
      Treats lookup occurrence (.problem
        ⟨.missingArgument, some occurrence.location,
          (missingArgument occurrence.location occurrence.rule.offset occurrence.text).message⟩)
  | variableName {token name : String} (found : occurrence.argument? = some token)
      (named : Names token name) (known : name ∈ lookup.variableNames) :
      Treats lookup occurrence .silent
  | unknown {token name : String} (found : occurrence.argument? = some token)
      (named : Names token name) (other : name ∉ lookup.variableNames)
      (unresolved : lookup.constants.resolve? name = none) :
      Treats lookup occurrence (.problem
        ⟨.unresolvedName, some occurrence.location,
          (unknownArgument occurrence.location name occurrence.text).message⟩)
  | outside {token name : String} {value : Int64} (found : occurrence.argument? = some token)
      (named : Names token name) (other : name ∉ lookup.variableNames)
      (resolved : lookup.constants.resolve? name = some value)
      (far : value.toInt < 0 ∨ (lookup.maxTiles : Int) ≤ value.toInt) :
      Treats lookup occurrence (.problem
        ⟨.tileOutOfRange, some occurrence.location,
          (argumentOutOfRange occurrence.location name
            (.outOfRange value ((add? value 1).getD value) lookup.maxTiles)).message⟩)
  | marked {token name : String} {value : Int64} {tile : Nat}
      (found : occurrence.argument? = some token) (named : Names token name)
      (other : name ∉ lookup.variableNames)
      (resolved : lookup.constants.resolve? name = some value)
      (exact : value.toInt = tile) (inside : tile < lookup.maxTiles) :
      Treats lookup occurrence (.mark occurrence.rule.category tile)

/-- What scanning finds for an occurrence. -/
def Occurrence.finding? (lookup : Lookup) (occurrence : Occurrence) : Option (Finding Category) :=
  occurrenceFinding? lookup occurrence.rule occurrence.location occurrence.text
    occurrence.argument?

/-- A finding as an outcome. The ranges that are marked for occurrences have one tile each. -/
def Outcome.ofFinding? : Option (Finding Category) → Outcome
  | none => silent
  | some (.problem diagnostic) => problem diagnostic
  | some (.mark category range) => mark category range.start.toInt.toNat

section Treatment

variable {lookup : Lookup} {occurrence : Occurrence}

theorem finding?_of_names {token name : String} (found : occurrence.argument? = some token)
    (named : Names token name) :
    occurrence.finding? lookup =
      if name ∈ lookup.variableNames then none
      else
        match lookup.constants.resolve? name with
        | none => some (.problem (unknownArgument occurrence.location name occurrence.text))
        | some tile =>
          some (.ofRange occurrence.rule.category lookup.maxTiles
            (argumentOutOfRange occurrence.location name)
            (inclusiveRange tile tile lookup.maxTiles)) := by
  rw [names_iff.mp named, Occurrence.finding?, found]
  rfl

/-- The tile of an occurrence makes a mark exactly when it is in the tile space. -/
theorem ofRange_self_eq_mark (small : lookup.maxTiles < 2 ^ 63) {value : Int64} {tile : Nat}
    (exact : value.toInt = tile) (inside : tile < lookup.maxTiles) (category : Category)
    (report : RangeError → Diagnostic) :
    ∃ range : Tile.Range, range.start = value ∧ range.stop.toInt = value.toInt + 1 ∧
      Finding.ofRange category lookup.maxTiles report
        (inclusiveRange value value lookup.maxTiles) = .mark category range := by
  obtain ⟨range, fits⟩ := (exists_inclusiveRange_within_iff small).mpr
    (show 0 ≤ value.toInt ∧ value.toInt ≤ value.toInt + 1 ∧ value.toInt < lookup.maxTiles by omega)
  obtain ⟨start, stop, -⟩ := inclusiveRange_within_eq_ok_iff.mp fits
  exact ⟨range, start, stop, Finding.ofRange_eq_mark_iff.mpr fits⟩

theorem Treats.eq_ofFinding? (small : lookup.maxTiles < 2 ^ 63) {outcome : Outcome}
    (treats : Treats lookup occurrence outcome) :
    outcome = .ofFinding? (occurrence.finding? lookup) := by
  cases treats with
  | missing ended =>
    rw [Occurrence.finding?, ended]
    rfl
  | variableName found named known =>
    rw [finding?_of_names found named, if_pos known]
    rfl
  | unknown found named other unresolved =>
    rw [finding?_of_names found named, if_neg other, unresolved]
    rfl
  | @outside token name value found named other resolved far =>
    have outside : ¬(0 ≤ value.toInt ∧ value.toInt ≤ value.toInt + 1 ∧
        value.toInt < lookup.maxTiles) := by omega
    rw [finding?_of_names found named, if_neg other, resolved]
    simp only [Finding.ofRange, inclusiveRange_within_eq_error outside, inclusiveError_self,
      Outcome.ofFinding?]
    rfl
  | @marked token name value tile found named other resolved exact inside =>
    obtain ⟨range, start, -, marks⟩ := ofRange_self_eq_mark small exact inside
      occurrence.rule.category (argumentOutOfRange occurrence.location name)
    rw [finding?_of_names found named, if_neg other, resolved]
    simp only [marks, Outcome.ofFinding?, start, exact, Int.toNat_natCast]

theorem treats_ofFinding? (small : lookup.maxTiles < 2 ^ 63) (occurrence : Occurrence) :
    Treats lookup occurrence (.ofFinding? (occurrence.finding? lookup)) := by
  -- what scanning finds is the only outcome there can be, so it is enough that there is one
  suffices some_way : ∃ outcome, Treats lookup occurrence outcome by
    obtain ⟨outcome, treats⟩ := some_way
    rwa [← treats.eq_ofFinding? small]
  cases found : occurrence.argument? with
  | none => exact ⟨_, .missing found⟩
  | some token =>
    have named : Names token (stripIndex token) := names_iff.mpr rfl
    by_cases known : stripIndex token ∈ lookup.variableNames
    · exact ⟨_, .variableName found named known⟩
    · cases resolved : lookup.constants.resolve? (stripIndex token) with
      | none => exact ⟨_, .unknown found named known resolved⟩
      | some value =>
        by_cases far : value.toInt < 0 ∨ (lookup.maxTiles : Int) ≤ value.toInt
        · exact ⟨_, .outside found named known resolved far⟩
        · have exact : value.toInt = value.toInt.toNat := by omega
          exact ⟨_, .marked found named known resolved exact (by omega)⟩

theorem treats_iff (small : lookup.maxTiles < 2 ^ 63) {outcome : Outcome} :
    Treats lookup occurrence outcome ↔ outcome = .ofFinding? (occurrence.finding? lookup) := by
  constructor
  · exact fun treats => treats.eq_ofFinding? small
  · rintro rfl
    exact treats_ofFinding? small occurrence

/-- A range that is marked for an occurrence has one tile, and that is in the tile space. -/
theorem finding?_eq_mark (small : lookup.maxTiles < 2 ^ 63) {category : Category}
    {range : Tile.Range} (marks : occurrence.finding? lookup = some (.mark category range)) :
    0 ≤ range.start.toInt ∧ range.stop.toInt = range.start.toInt + 1 ∧
      range.start.toInt < lookup.maxTiles := by
  have treats := treats_ofFinding? small occurrence
  rw [marks] at treats
  cases treats with
  | marked found named other resolved =>
    rw [finding?_of_names found named, if_neg other, resolved, Option.some.injEq] at marks
    obtain ⟨start, stop, bounds⟩ :=
      inclusiveRange_within_eq_ok_iff.mp (Finding.ofRange_eq_mark_iff.mp marks)
    rw [start]
    omega

/-! ## Scanning -/

theorem Tiles.ext_get {a b : Tiles} (get : ∀ category, a.get category = b.get category) :
    a = b := by
  obtain ⟨actor, spawn, projectile, screen⟩ := a
  congr 1
  · exact get .actor
  · exact get .spawn
  · exact get .projectile
  · exact get .screen

theorem arguments_eq (rule : Rule) (tokens : List String) :
    arguments rule tokens =
      (positions rule tokens).map fun position => tokens[position + rule.offset]? := by
  rw [arguments, positions, List.map_map, ← List.filterMap_eq_map, List.filterMap_filter]
  refine List.filterMap_congr fun entry _ => ?_
  simp

/-- Scanning finds what there is to find for the occurrences, in order, and nothing else. -/
theorem findings_eq (sources : List Source) :
    sources.flatMap (sourceFindings lookup) =
      (occurrences sources).filterMap (·.finding? lookup) := by
  rw [occurrences, List.filterMap_flatMap]
  refine List.flatMap_congr fun source _ => ?_
  rw [sourceFindings, List.filterMap_flatMap]
  refine List.flatMap_congr fun entry _ => ?_
  obtain ⟨line, number⟩ := entry
  simp only [lineFindings, arguments_eq, List.filterMap_map]
  rfl

theorem mark_mem_findings_iff (small : lookup.maxTiles < 2 ^ 63) {sources : List Source}
    {category : Category} {tile : Nat} :
    (∃ range, .mark category range ∈ sources.flatMap (sourceFindings lookup) ∧
        range.Contains tile ∧ tile < lookup.maxTiles) ↔
      ∃ occurrence ∈ occurrences sources, Treats lookup occurrence (.mark category tile) := by
  simp only [findings_eq, List.mem_filterMap, treats_iff small]
  constructor
  · rintro ⟨range, ⟨occurrence, mem, found⟩, ⟨low, high⟩, -⟩
    obtain ⟨nonneg, stop, -⟩ := finding?_eq_mark small found
    refine ⟨occurrence, mem, ?_⟩
    rw [found, Outcome.ofFinding?, show range.start.toInt.toNat = tile by omega]
  · rintro ⟨occurrence, mem, outcome⟩
    match found : occurrence.finding? lookup with
    | none | some (.problem _) =>
      rw [found] at outcome
      cases outcome
    | some (.mark other range) =>
      rw [found] at outcome
      cases outcome
      obtain ⟨nonneg, stop, inside⟩ := finding?_eq_mark small found
      exact ⟨range, ⟨occurrence, mem, found⟩, ⟨by omega, by omega⟩, by omega⟩

end Treatment

/-- Scanning files of instance lines loses and invents nothing. The occurrences in a file come in
the order of its lines and tokens, and every one is treated in exactly one way. The problems of the
occurrences are reported in order and nothing else is; each bitmap holds the tiles that are marked
for occurrences of its category, and the order of the files is of no account to it. -/
theorem scan_exact {lookup : Lookup} (small : lookup.maxTiles < 2 ^ 63) (sources : List Source) :
    let findings := sources.flatMap (sourceFindings lookup)
    let tiles := Tiles.ofFindings lookup.maxTiles findings
    (∀ source, (occurrences [source]).Pairwise Occurrence.Before) ∧
      (∀ occurrence, ∃! outcome, Treats lookup occurrence outcome) ∧
      (∃ outcomes, List.Forall₂ (Treats lookup) (occurrences sources) outcomes ∧
        Finding.diagnostics findings = outcomes.filterMap Outcome.diagnostic?) ∧
      (∀ category, (tiles.get category).size = lookup.maxTiles ∧
        ∀ tile, (tiles.get category).isSet tile = true ↔
          ∃ occurrence ∈ occurrences sources, Treats lookup occurrence (.mark category tile)) ∧
      ∀ others : List Source, others.Perm sources →
        Tiles.ofFindings lookup.maxTiles (others.flatMap (sourceFindings lookup)) = tiles := by
  intro findings tiles
  refine ⟨pairwise_occurrences, fun occurrence => ?_, ?_, fun category => ⟨?_, fun tile => ?_⟩,
    fun others perm => ?_⟩
  · exact ⟨_, treats_ofFinding? small occurrence, fun outcome treats => treats.eq_ofFinding? small⟩
  · refine ⟨(occurrences sources).map fun occurrence => .ofFinding? (occurrence.finding? lookup),
      ?_, ?_⟩
    · exact List.forall₂_map_right_iff.mpr
        (List.forall₂_same.mpr fun occurrence _ => treats_ofFinding? small occurrence)
    · simp only [findings, Finding.diagnostics, findings_eq, List.filterMap_filterMap,
        List.filterMap_map]
      refine List.filterMap_congr fun occurrence _ => ?_
      rcases found : occurrence.finding? lookup with _ | _ | _ <;>
        simp [found, Outcome.ofFinding?, Outcome.diagnostic?]
  · rw [Tiles.get_ofFindings, Finding.size_bitmap]
  · rw [Tiles.get_ofFindings, Finding.isSet_bitmap, mark_mem_findings_iff small]
  · -- which occurrences there are does not depend on the order of the files
    refine Tiles.ext_get fun category => Tile.Bitmap.ext_isSet ?_ fun tile => ?_
    · simp only [tiles, Tiles.get_ofFindings, Finding.size_bitmap]
    · simp only [tiles, findings, Tiles.get_ofFindings, Finding.isSet_bitmap,
        mark_mem_findings_iff small, mem_occurrences_iff, perm.mem_iff]

/-- On a line with two keywords the first one marks its tile, although the second one has no
argument. -/
theorem scan_exact_two_spawns :
    let lookup : Lookup := ⟨4, ∅, ∅⟩
    let source : Source :=
      ⟨⟨"spawn.txt", ["spawn"], 1, .spawn⟩, "spawn.txt", "A.CON:7: spawn 3[2] spawn"⟩
    lookup.maxTiles < 2 ^ 63 ∧
      ((Tiles.ofFindings 4 ([source].flatMap (sourceFindings lookup))).get .spawn).isSet 3 =
        true := by
  intro lookup source
  have small : lookup.maxTiles < 2 ^ 63 := by decide
  have line : lines source.text = ["A.CON:7: spawn 3[2] spawn".toList] := by cbv
  have tokens : (fields (clean "A.CON:7: spawn 3[2] spawn".toList)).map String.ofList =
      ["spawn", "3[2]", "spawn"] := by cbv
  have token? (position : Nat) :
      Occurrence.token? ⟨source, 1, clean "A.CON:7: spawn 3[2] spawn".toList, 0⟩ position =
        ["spawn", "3[2]", "spawn"][position]? := by
    rw [Occurrence.token?, tokens]
  have argument? :
      Occurrence.argument? ⟨source, 1, clean "A.CON:7: spawn 3[2] spawn".toList, 0⟩ =
        some "3[2]" := by
    rw [Occurrence.argument?, token?]
    rfl
  have mem : ⟨source, 1, clean "A.CON:7: spawn 3[2] spawn".toList, 0⟩ ∈ occurrences [source] := by
    rw [mem_occurrences_iff, token?, Occurrence.rule]
    dsimp only
    rw [line]
    exact ⟨List.mem_singleton_self _, ⟨_, Nat.le_refl 1, rfl, rfl⟩, "spawn",
      List.mem_singleton_self _, rfl⟩
  have resolved : lookup.constants.resolve? "3" = some 3 := by decide
  have marked : Treats lookup ⟨source, 1, clean "A.CON:7: spawn 3[2] spawn".toList, 0⟩
      (.mark .spawn 3) :=
    .marked argument? (names_iff.mpr (by decide)) Std.ExtTreeSet.not_mem_empty resolved rfl
      (by decide)
  obtain ⟨-, -, -, bitmaps, -⟩ := scan_exact small [source]
  exact ⟨small, ((bitmaps .spawn).2 3).mpr ⟨_, mem, marked⟩⟩

end TileCensus.Instance
