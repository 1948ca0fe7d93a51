import TileCensus.Proofs.DefinitionRecords

/-!
# Voxel blocks and their ranges

A tile gets a model by a record in a voxel block, and the block is one because a voxel record
awaited it (`isSet_voxel_iff`). A voxel record need not stand directly before its block: any words
may come between that do not take the wait back, and the words of other records are such words. So
a record of another kind can lend its block to a voxel record before it that has none
(`not_forall_inOwnBlock`).

A range in a voxel block is ended by `tile1`. That a range has no beginning is reported if it has
none, and also if the argument of its `tile0` stands for no number, which has been reported already
(`reports_of_range`, `not_forall_not_begun`).
-/

namespace TileCensus.Definition

open Script Tile

/-! ## Blocks -/

/-- A tile is marked as one with a model exactly if a record of it stands in a block that is a
voxel block by what comes before it: the opening brace outside all blocks is preceded by a voxel
record outside all blocks, and no brace is opened and no other record that the scan knows is begun
between these two. -/
theorem isSet_voxel_iff (maxTiles : Nat) (constants : Constants) (source : Source) (tile : Nat) :
    ((Tiles.ofFindings maxTiles (sourceFindings maxTiles constants source)).get .voxel).isSet
        tile = true ↔
      ∃ earlier visit later first last range,
        sourceVisits maxTiles constants source = earlier ++ visit :: later ∧
        InVoxelBlock earlier ∧
        Records ⟨source.path, maxTiles, constants⟩ earlier visit .voxel first last ∧
        (inclusiveRange first last maxTiles).bind (·.within maxTiles) = .ok range ∧
        range.Contains tile := by
  rw [Tiles.get_ofFindings, Finding.isSet_bitmap, sourceFindings_eq]
  constructor
  · intro marked
    obtain ⟨range, mem, contains, -⟩ := marked
    obtain ⟨visit, visited, mem⟩ := List.mem_flatMap.mp mem
    obtain ⟨earlier, later, split⟩ := List.append_of_mem visited
    have tells := tells_of_split split
    obtain ⟨first, last, records, fits⟩ := (mark_mem_step_iff tells).mp mem
    exact ⟨earlier, visit, later, first, last, range, split, records.inVoxelBlock, records, fits,
      contains⟩
  · intro given
    obtain ⟨earlier, visit, later, first, last, range, split, -, records, fits, contains⟩ := given
    have tells := tells_of_split split
    refine ⟨range, List.mem_flatMap.mpr ⟨visit, ?_, ?_⟩, contains, ?_⟩
    · rw [split]
      exact List.mem_append_right _ List.mem_cons_self
    · exact (mark_mem_step_iff tells).mpr ⟨first, last, records, fits⟩
    · obtain ⟨-, stop, -, -, inside⟩ := inclusiveRange_within_eq_ok_iff.mp fits
      obtain ⟨-, below⟩ := contains
      omega

/-- A block has begun outside all blocks and is still open, and at most one word stands between its
opening brace and a voxel record outside all blocks. -/
def InOwnBlock : List Visit → Prop :=
  Since
    (fun before visit =>
      visit.token.word = "\x7b" ∧ nesting before = 0 ∧
        ∃ outer voxel others words, before = outer ++ voxel :: others ∧
          voxel.token.word = "voxel" ∧ nesting outer = 0 ∧
          voxel.rest = words ++ visit.token :: visit.rest ∧ words.length ≤ 1)
    fun before visit => nesting (before ++ [visit]) ≠ 0

/-- A voxel record without a block, and a record of another kind that has one. -/
def lentBlock : Source := ⟨"tiles.def", "voxel \"a.kvx\"\ntexture 300\n\x7b tile 5"⟩

/-- Not every block that marks tiles as ones with a model is that of a voxel record. -/
theorem not_forall_inOwnBlock :
    ¬∀ (maxTiles : Nat) (constants : Constants) (source : Source) (earlier later : List Visit)
        (visit : Visit) (range : Tile.Range),
      sourceVisits maxTiles constants source = earlier ++ visit :: later →
      .mark .voxel range ∈ (visit.step ⟨source.path, maxTiles, constants⟩).findings →
      InOwnBlock earlier := by
  intro claim
  let voxel : Visit := ⟨⟨0, false, none, none⟩, ⟨"voxel", 1⟩,
    [⟨"texture", 2⟩, ⟨"300", 2⟩, ⟨"\x7b", 3⟩, ⟨"tile", 3⟩, ⟨"5", 3⟩]⟩
  let texture : Visit := ⟨⟨0, true, none, none⟩, ⟨"texture", 2⟩,
    [⟨"300", 2⟩, ⟨"\x7b", 3⟩, ⟨"tile", 3⟩, ⟨"5", 3⟩]⟩
  let number : Visit := ⟨⟨0, true, none, none⟩, ⟨"300", 2⟩, [⟨"\x7b", 3⟩, ⟨"tile", 3⟩, ⟨"5", 3⟩]⟩
  let brace : Visit := ⟨⟨0, true, none, none⟩, ⟨"\x7b", 3⟩, [⟨"tile", 3⟩, ⟨"5", 3⟩]⟩
  let tile : Visit := ⟨⟨1, false, some 1, none⟩, ⟨"tile", 3⟩, [⟨"5", 3⟩]⟩
  have split : sourceVisits 64 ∅ lentBlock =
      ([voxel, texture, number] ++ [brace]) ++ tile :: [] := by
    cbv
  have found : (tile.step ⟨"tiles.def", 64, ∅⟩).findings = [.mark .voxel ⟨5, 6⟩] := by cbv
  have marked : .mark .voxel ⟨5, 6⟩ ∈ (tile.step ⟨"tiles.def", 64, ∅⟩).findings := by
    rw [found]
    exact List.mem_singleton_self _
  obtain ⟨-, -, outer, record, others, words, before, word, -, between, few⟩ | ⟨since, -⟩ :=
    since_concat.mp (claim _ _ _ _ _ _ _ split marked)
  · -- two words stand between the brace and the only voxel record
    have mem : record ∈ [voxel, texture, number] := by
      rw [before]
      exact List.mem_append_right _ List.mem_cons_self
    simp only [List.mem_cons, List.not_mem_nil, or_false] at mem
    obtain rfl | rfl | rfl := mem
    · have lengths := congrArg List.length between
      simp only [voxel, brace, List.length_cons, List.length_append, List.length_nil] at lengths
      omega
    · exact absurd word (by decide)
    · exact absurd word (by decide)
  · -- no brace stands before that one
    obtain ⟨before, opener, between, before_eq, ⟨word, -⟩, -⟩ := since
    have mem : opener ∈ [voxel, texture, number] := by
      rw [before_eq]
      exact List.mem_append_right _ List.mem_cons_self
    simp only [List.mem_cons, List.not_mem_nil, or_false] at mem
    obtain rfl | rfl | rfl := mem <;> exact absurd word (by decide)

/-! ## Ranges -/

section Ranges

variable {context : Context} {history : List Visit} {visit : Visit}

/-- An argument without a value is reported once: it is missing or it is unknown. -/
theorem readArgument_findings_of_none {keyword : Token} {tokens : List Token}
    (read : (readArgument context keyword tokens).value = none) :
    ∃ diagnostic, (readArgument context keyword tokens).findings = [.problem diagnostic] ∧
      (diagnostic = missingArgument context keyword ∨
        ∃ argument rest, tokens = argument :: rest ∧
          diagnostic = unknownArgument context keyword argument) := by
  cases tokens with
  | nil => exact ⟨_, rfl, .inl rfl⟩
  | cons token rest =>
    simp only [readArgument] at read ⊢
    split
    next accepted =>
      rw [if_pos accepted] at read
      split
      next value known =>
        rw [known] at read
        cases read
      next => exact ⟨_, rfl, .inr ⟨token, rest, rfl, rfl⟩⟩
    next => exact ⟨_, rfl, .inl rfl⟩

theorem missingFirst_not_mem_readArgument {keyword other : Token} {tokens : List Token} :
    .problem (missingFirst context keyword) ∉ (readArgument context other tokens).findings := by
  intro mem
  cases read : (readArgument context other tokens).value with
  | some value =>
    rw [readArgument_findings read] at mem
    cases mem
  | none =>
    obtain ⟨diagnostic, found, reason⟩ := readArgument_findings_of_none read
    rw [found] at mem
    obtain rfl := Finding.problem.inj (List.mem_singleton.mp mem)
    obtain same | ⟨argument, rest, -, same⟩ := reason
    · -- the two messages begin with different letters
      have messages := congrArg (fun diagnostic => diagnostic.message.toList.head?) same
      simp [missingFirst, missingArgument, toString] at messages
    · cases congrArg Diagnostic.kind same

/-- A range without a first tile has one that stands for no number, or none was named. -/
theorem forall_not_rangeBegun_iff :
    (∀ first, ¬RangeBegun context (some first) history) ↔
      RangeBegun context none history ∨ ¬∃ first, RangeBegun context first history := by
  constructor
  · intro unusable
    by_cases begun : ∃ first, RangeBegun context first history
    · obtain ⟨first, begun⟩ := begun
      cases first with
      | none => exact .inl begun
      | some first => exact absurd begun (unusable first)
    · exact .inr begun
  · intro unusable first begun
    obtain empty | absent := unusable
    · cases begun.unique empty
    · exact absent ⟨some first, begun⟩

theorem findings_of_tile0 (tells : Tells context history visit.state)
    (word : visit.token.word = "tile0") (inside : InVoxelBlock history) :
    (visit.step context).findings = (visit.argument context).findings := by
  have known : visit.state.keyword? visit.token.word = some .tile0 :=
    keyword?_eq_some_iff.mpr ⟨word, tells.block.mpr inside⟩
  rw [Visit.step, step, known]
  rfl

/-- The end of a range without a first tile finds, besides its argument, that there is none. -/
theorem findings_of_unbegun (tells : Tells context history visit.state)
    (word : visit.token.word = "tile1") (inside : InVoxelBlock history)
    (unbegun : ∀ first, ¬RangeBegun context (some first) history) :
    (visit.step context).findings =
      (visit.argument context).findings ++
        (visit.argument context).value.toList.map fun _ =>
          .problem (missingFirst context visit.token) := by
  have known : visit.state.keyword? visit.token.word = some .tile1 :=
    keyword?_eq_some_iff.mpr ⟨word, tells.block.mpr inside⟩
  have forgotten : visit.state.tile0 = none := by
    refine Option.eq_none_iff_forall_ne_some.mpr fun first remembered => ?_
    exact unbegun first ((tells.memory first).mp remembered)
  rw [Visit.step, step, known]
  dsimp only
  rw [forgotten, ← Visit.argument]
  cases (visit.argument context).value with
  | none => rfl
  | some last => rfl

theorem missingFirst_mem_step_iff (tells : Tells context history visit.state) :
    .problem (missingFirst context visit.token) ∈ (visit.step context).findings ↔
      EndsUnbegun context history visit := by
  constructor
  · intro mem
    obtain ⟨tokens, mem⟩ | ⟨unbegun, -⟩ | ⟨target, first, last, -, same⟩ :=
      mem_step_cases tells mem
    · exact absurd mem missingFirst_not_mem_readArgument
    · exact unbegun
    · obtain ⟨reason, same⟩ := Finding.exists_report_of_ofRange same.symm
      cases congrArg Diagnostic.kind same
  · intro unbegun
    obtain ⟨last, ends⟩ := unbegun.ends
    rw [findings_of_unbegun tells unbegun.word unbegun.inside unbegun.unbegun, ends]
    exact List.mem_append_right _ (List.mem_singleton_self _)

end Ranges

/-- That a range has no beginning is reported at its end, when that has a value itself, exactly if
no `tile0` has begun it or the last one has no value. A `tile0` without a value is reported once,
for its argument; the end of its range adds a report to that. -/
theorem reports_of_range {maxTiles : Nat} {constants : Constants} {source : Source}
    {earlier later : List Visit} {visit : Visit}
    (split : sourceVisits maxTiles constants source = earlier ++ visit :: later) :
    let context : Context := ⟨source.path, maxTiles, constants⟩
    let findings := (visit.step context).findings
    let unbegun := RangeBegun context none earlier ∨ ¬∃ first, RangeBegun context first earlier
    sourceFindings maxTiles constants source =
        foundAt context earlier ++ findings ++ foundAt context later ∧
      (.problem (missingFirst context visit.token) ∈ findings ↔
        visit.token.word = "tile1" ∧ InVoxelBlock earlier ∧
          (∃ last, (visit.argument context).value = some last) ∧ unbegun) ∧
      (visit.token.word = "tile0" → InVoxelBlock earlier → (visit.argument context).value = none →
        ∃ diagnostic, findings = [.problem diagnostic] ∧
          (diagnostic = missingArgument context visit.token ∨
            ∃ argument rest, visit.rest = argument :: rest ∧
              diagnostic = unknownArgument context visit.token argument)) ∧
      (visit.token.word = "tile1" → InVoxelBlock earlier → unbegun →
        findings =
          (visit.argument context).findings ++
            (visit.argument context).value.toList.map fun _ =>
              .problem (missingFirst context visit.token)) := by
  intro context findings unbegun
  have tells : Tells context earlier visit.state := tells_of_split split
  have unbegun_iff : (∀ first, ¬RangeBegun context (some first) earlier) ↔ unbegun :=
    forall_not_rangeBegun_iff
  refine ⟨?_, ?_, ?_, ?_⟩
  · rw [sourceFindings_eq, split, foundAt_append_cons]
  · rw [missingFirst_mem_step_iff tells, ← unbegun_iff]
    constructor
    · intro ended
      exact ⟨ended.word, ended.inside, ended.ends, ended.unbegun⟩
    · intro ended
      obtain ⟨word, inside, ends, unbegun⟩ := ended
      exact ⟨word, inside, ends, unbegun⟩
  · intro word inside absent
    obtain ⟨diagnostic, found, reason⟩ := readArgument_findings_of_none absent
    exact ⟨diagnostic, (findings_of_tile0 tells word inside).trans found, reason⟩
  · intro word inside none_begun
    exact findings_of_unbegun tells word inside (unbegun_iff.mpr none_begun)

/-- A range whose second `tile0` has an unknown argument, and that ends in a block of its own. -/
def forgottenFirst : Source := ⟨"tiles.def", "voxel \x7b\ntile0 2\ntile0 X\n\x7b tile1 4"⟩

/-- The visits of the range before the second `tile0`. -/
def forgottenFirstBegun : List Visit :=
  let second := [⟨"tile0", 3⟩, ⟨"X", 3⟩, ⟨"\x7b", 4⟩, ⟨"tile1", 4⟩, ⟨"4", 4⟩]
  [⟨⟨0, false, none, none⟩, ⟨"voxel", 1⟩, ⟨"\x7b", 1⟩ :: ⟨"tile0", 2⟩ :: ⟨"2", 2⟩ :: second⟩,
    ⟨⟨0, true, none, none⟩, ⟨"\x7b", 1⟩, ⟨"tile0", 2⟩ :: ⟨"2", 2⟩ :: second⟩,
    ⟨⟨1, false, some 1, none⟩, ⟨"tile0", 2⟩, ⟨"2", 2⟩ :: second⟩]

/-- The second `tile0` makes the range one without a beginning, although the first is known. -/
theorem reports_of_range_forgottenFirst :
    let context : Context := ⟨"tiles.def", 64, ∅⟩
    let begun : Visit := ⟨⟨1, false, some 1, some 2⟩, ⟨"tile0", 3⟩,
      [⟨"X", 3⟩, ⟨"\x7b", 4⟩, ⟨"tile1", 4⟩, ⟨"4", 4⟩]⟩
    let nested : Visit := ⟨⟨1, false, some 1, none⟩, ⟨"\x7b", 4⟩, [⟨"tile1", 4⟩, ⟨"4", 4⟩]⟩
    let ended : Visit := ⟨⟨2, false, some 1, none⟩, ⟨"tile1", 4⟩, [⟨"4", 4⟩]⟩
    sourceVisits 64 ∅ forgottenFirst =
        (forgottenFirstBegun ++ [begun] ++ [nested]) ++ ended :: [] ∧
      .problem (missingFirst context ended.token) ∈ (ended.step context).findings := by
  intro context begun nested ended
  have split : sourceVisits 64 ∅ forgottenFirst =
      (forgottenFirstBegun ++ [begun] ++ [nested]) ++ ended :: [] := by cbv
  have split' : sourceVisits 64 ∅ forgottenFirst =
      forgottenFirstBegun ++ begun :: [nested, ended] := split
  have inside : InVoxelBlock forgottenFirstBegun := (tells_of_split split').block.mp rfl
  have inside' : InVoxelBlock (forgottenFirstBegun ++ [begun] ++ [nested]) :=
    (tells_of_split split).block.mp rfl
  have unknown : (begun.argument context).value = none := by cbv
  have ends : (ended.argument context).value = some 4 := by cbv
  have begins : RangeBegun context none (forgottenFirstBegun ++ [begun]) :=
    since_concat.mpr (.inl ⟨rfl, inside, unknown⟩)
  have unbegun : RangeBegun context none (forgottenFirstBegun ++ [begun] ++ [nested]) :=
    since_concat.mpr (.inr ⟨begins, by decide⟩)
  refine ⟨split, (reports_of_range split).2.1.mpr ?_⟩
  exact ⟨rfl, inside', ⟨4, ends⟩, .inl unbegun⟩

/-- A range whose `tile0` has an unknown argument. -/
def unknownFirst : Source := ⟨"tiles.def", "voxel \"v.kvx\"\n\x7b tile0 X\ntile1 4"⟩

/-- That a range has no beginning is reported not only where none was named. -/
theorem not_forall_not_begun :
    ¬∀ (maxTiles : Nat) (constants : Constants) (source : Source) (earlier later : List Visit)
        (visit : Visit),
      sourceVisits maxTiles constants source = earlier ++ visit :: later →
      .problem (missingFirst ⟨source.path, maxTiles, constants⟩ visit.token) ∈
        (visit.step ⟨source.path, maxTiles, constants⟩).findings →
      ¬∃ first, RangeBegun ⟨source.path, maxTiles, constants⟩ first earlier := by
  intro claim
  let context : Context := ⟨"tiles.def", 64, ∅⟩
  let opened : List Visit :=
    [⟨⟨0, false, none, none⟩, ⟨"voxel", 1⟩,
        [⟨"\x7b", 2⟩, ⟨"tile0", 2⟩, ⟨"X", 2⟩, ⟨"tile1", 3⟩, ⟨"4", 3⟩]⟩,
      ⟨⟨0, true, none, none⟩, ⟨"\x7b", 2⟩, [⟨"tile0", 2⟩, ⟨"X", 2⟩, ⟨"tile1", 3⟩, ⟨"4", 3⟩]⟩]
  let begun : Visit :=
    ⟨⟨1, false, some 1, none⟩, ⟨"tile0", 2⟩, [⟨"X", 2⟩, ⟨"tile1", 3⟩, ⟨"4", 3⟩]⟩
  let ended : Visit := ⟨⟨1, false, some 1, none⟩, ⟨"tile1", 3⟩, [⟨"4", 3⟩]⟩
  have split : sourceVisits 64 ∅ unknownFirst = (opened ++ [begun]) ++ ended :: [] := by cbv
  have split' : sourceVisits 64 ∅ unknownFirst = opened ++ begun :: [ended] := split
  have inside : InVoxelBlock opened := (tells_of_split split').block.mp rfl
  have unknown : (begun.argument context).value = none := by cbv
  have begins : RangeBegun context none (opened ++ [begun]) :=
    since_concat.mpr (.inl ⟨rfl, inside, unknown⟩)
  have reported :
      (ended.step context).findings = [.problem (missingFirst context ended.token)] := by cbv
  refine claim _ _ _ _ _ _ split ?_ ⟨none, begins⟩
  exact reported ▸ List.mem_singleton_self _

end TileCensus.Definition
