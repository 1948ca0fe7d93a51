import TileCensus.Proofs.JsonLayout
import TileCensus.Proofs.Rerun
import TileCensus.Proofs.TileSpace

/-!
# Bitmaps in reports

A census tells its bitmaps twice, by a file of bytes for each of them and by lists of tiles in the
report, and the two agree (`census_reported`). Each file can be made again from its entry in the
report (`BitmapReport.bytes`), and a report can be read back from its text (`Report.text_injective`),
so the report alone determines the files.

Both are views of the same flags. Every bitmap has one flag for each tile of the space, whatever was
found (`Corpus.isOfSpace_census`), and the entries are kept apart because no two bitmaps have one
name (`Census.nodup_stems`).
-/

namespace TileCensus

open Tile

/-! ## Reports on one bitmap -/

namespace BitmapReport

/-- The bytes that a report on a bitmap stands for in a space of a size. -/
def bytes (entry : BitmapReport) (maxTiles : Nat) : Bytes :=
  (List.range maxTiles).map fun tile => if tile ∈ entry.tiles then 1 else 0

/-- A report on a bitmap of a space: it lists tiles of the space in ascending order, and says how
many they are. -/
structure IsOfSpace (entry : BitmapReport) (maxTiles : Nat) : Prop where
  ascending : entry.tiles.Pairwise (· < ·)
  inside : ∀ tile ∈ entry.tiles, tile < maxTiles
  counted : entry.tiles.length = entry.marked

theorem bytes_ofBitmap (bitmap : Bitmap) : (ofBitmap bitmap).bytes bitmap.size = bitmap.bytes := by
  rw [bytes, Bitmap.bytes_eq]
  simp only [ofBitmap, Bitmap.mem_marked_iff]

theorem isOfSpace_ofBitmap (bitmap : Bitmap) : (ofBitmap bitmap).IsOfSpace bitmap.size where
  ascending := bitmap.marked_ascending
  inside _ mem := List.mem_range.mp (List.mem_of_mem_filter mem)
  counted := bitmap.length_marked

end BitmapReport

/-! ## Bitmaps of a census -/

/-- The names of the bitmaps, with or without those that definitions are scanned into. -/
def Census.stems (scanned : Bool) : List String :=
  actorFramesStem :: Instance.Category.all.map Instance.Category.stem ++
    if scanned then Definition.Target.all.map Definition.Target.stem else []

theorem Census.map_bitmaps (census : Census) :
    census.bitmaps.map (·.1) = stems census.definitions.isSome := by
  unfold bitmaps
  cases census.definitions with
  | none => rfl
  | some tiles => rfl

theorem Census.nodup_stems (census : Census) : (census.bitmaps.map (·.1)).Nodup := by
  rw [map_bitmaps]
  cases census.definitions.isSome with
  | false => decide
  | true => decide

/-- Every bitmap of a census has a flag for each tile of a space. -/
def Census.IsOfSpace (census : Census) (maxTiles : Nat) : Prop :=
  ∀ stem bitmap, (stem, bitmap) ∈ census.bitmaps → bitmap.size = maxTiles

/-- A census is one of the space of its corpus, whatever is found in it. -/
theorem Corpus.isOfSpace_census (corpus : Corpus) (loading : List Diagnostic) :
    (corpus.census loading).IsOfSpace corpus.maxTiles := by
  intro stem bitmap mem
  simp only [Census.bitmaps, census, Survey.census, Instance.Tiles.get_ofFindings,
    List.cons_append, List.mem_cons, List.mem_append, List.mem_map, Prod.mk.injEq] at mem
  rcases mem with ⟨-, same⟩ | ⟨category, -, -, same⟩ | mem
  · rw [same, Finding.size_bitmap]
  · rw [← same, Finding.size_bitmap]
  · cases scanned : corpus.survey.definitions with
    | none => simp [scanned] at mem
    | some findings =>
      simp only [scanned, Option.map_some, Option.getD_some, Definition.Tiles.get_ofFindings,
        List.mem_map, Prod.mk.injEq] at mem
      obtain ⟨target, -, -, same⟩ := mem
      rw [← same, Finding.size_bitmap]

/-! ## Reports -/

namespace Report

theorem getElem?_bitmaps_iff {census : Census} {stem : String} {entry : BitmapReport} :
    (ofCensus census).bitmaps[stem]? = some entry ↔
      ∃ bitmap, (stem, bitmap) ∈ census.bitmaps ∧ entry = .ofBitmap bitmap := by
  have distinct : ((census.bitmaps.map fun named =>
      (named.1, BitmapReport.ofBitmap named.2)).map (·.1)).Nodup := by
    rw [List.map_map]
    exact census.nodup_stems
  refine (Table.getElem?_ofList_iff distinct).trans ?_
  rw [List.mem_map]
  constructor
  · rintro ⟨⟨stem, bitmap⟩, mem, same⟩
    cases same
    exact ⟨bitmap, mem, rfl⟩
  · rintro ⟨bitmap, mem, rfl⟩
    exact ⟨(stem, bitmap), mem, rfl⟩

theorem toJson_injective : Function.Injective toJson := by
  intro first second equal
  obtain ⟨maxTiles, summary, bitmaps, unusedActions, diagnostics⟩ := first
  obtain ⟨maxTiles', summary', bitmaps', unusedActions', diagnostics'⟩ := second
  simp only [toJson, Json.object.injEq, Json.array.injEq, Json.number.injEq, List.cons.injEq,
    Prod.mk.injEq, true_and, and_true] at equal
  obtain ⟨rfl, summaries, entries, unused, counts⟩ := equal
  have summary_eq : summary = summary' := by
    cases summary
    cases summary'
    simpa [Script.SymbolSummary.fields] using summaries
  have bitmaps_eq : bitmaps = bitmaps' := by
    refine Std.ExtTreeMap.toList_inj.mp (List.map_injective_iff.mpr ?_ entries)
    rintro ⟨stem, ⟨marked, tiles⟩⟩ ⟨stem', ⟨marked', tiles'⟩⟩ same
    simp only [Prod.mk.injEq, Json.object.injEq, Json.array.injEq, Json.number.injEq,
      List.cons.injEq, true_and, and_true, List.map_inj_right fun _ _ => Json.number.inj] at same
    obtain ⟨rfl, rfl, rfl⟩ := same
    rfl
  have unused_eq : unusedActions = unusedActions' :=
    Std.ExtTreeSet.toList_inj.mp (List.map_injective_iff.mpr (fun _ _ => Json.text.inj) unused)
  have counts_eq : diagnostics = diagnostics' := by
    refine List.map_injective_iff.mpr ?_ counts
    rintro ⟨kind, n⟩ ⟨kind', n'⟩ same
    obtain ⟨keys, numbers⟩ := Prod.mk.inj same
    exact Prod.ext (DiagnosticKind.key_injective keys) (Json.number.inj numbers)
  rw [summary_eq, bitmaps_eq, unused_eq, counts_eq]

/-- A report can be read back from its text. -/
theorem text_injective : Function.Injective text := by
  intro first second equal
  exact toJson_injective (Json.layout_injective 0 ((String.append_left_inj "\n").mp equal))

end Report

/-! ## Files and entries -/

theorem BitmapReport.getElem?_bytes_eq_one_iff {entry : BitmapReport} {maxTiles : Nat}
    (listed : entry.IsOfSpace maxTiles) {tile : Nat} :
    (entry.bytes maxTiles)[tile]? = some 1 ↔ tile ∈ entry.tiles := by
  rw [bytes, List.getElem?_map, Option.map_eq_some_iff]
  constructor
  · rintro ⟨other, found, one⟩
    obtain ⟨inside, rfl⟩ := List.getElem?_eq_some_iff.mp found
    rw [List.getElem_range] at one
    by_contra absent
    rw [if_neg absent] at one
    cases one
  · intro mem
    exact ⟨tile, List.getElem?_range (listed.inside tile mem), if_pos mem⟩

namespace Census.IsOfSpace

variable {census : Census} {maxTiles : Nat}

theorem maxTiles_report (sized : census.IsOfSpace maxTiles) :
    (Report.ofCensus census).maxTiles = maxTiles :=
  sized actorFramesStem census.actorFrames List.mem_cons_self

/-- The entry of a bitmap lists its tiles, and has its bytes. -/
theorem exists_entry (sized : census.IsOfSpace maxTiles) {stem : String} {bitmap : Bitmap}
    (mem : (stem, bitmap) ∈ census.bitmaps) :
    ∃ entry, (Report.ofCensus census).bitmaps[stem]? = some entry ∧ entry.IsOfSpace maxTiles ∧
      entry.bytes maxTiles = bitmap.bytes := by
  obtain rfl := sized stem bitmap mem
  exact ⟨.ofBitmap bitmap, Report.getElem?_bitmaps_iff.mpr ⟨bitmap, mem, rfl⟩,
    BitmapReport.isOfSpace_ofBitmap bitmap, BitmapReport.bytes_ofBitmap bitmap⟩

/-- The files that are written of a census are those that its report tells, and the report. -/
theorem write_mem_steps_iff (sized : census.IsOfSpace maxTiles) {output path : String}
    {bytes : Bytes} :
    .write path bytes ∈ (census.steps output).map (·.effect) ↔
      (∃ stem entry, (Report.ofCensus census).bitmaps[stem]? = some entry ∧
        path = bitmapPath output stem ∧ bytes = entry.bytes maxTiles) ∨
      path = reportPath output ∧ bytes = Text.Utf8.encode (Report.ofCensus census).text := by
  have written : .write path bytes ∈ (census.steps output).map (·.effect) ↔
      (path, bytes) ∈ census.writes output := by
    rw [Census.map_effect_steps, List.mem_cons, List.mem_map]
    constructor
    · rintro (same | ⟨file, mem, same⟩)
      · cases same
      · cases same
        exact mem
    · exact fun mem => .inr ⟨_, mem, rfl⟩
  rw [written, Census.writes, List.mem_append, List.mem_singleton, List.mem_map, Prod.mk.injEq]
  refine or_congr_left ⟨?_, ?_⟩
  · rintro ⟨⟨stem, bitmap⟩, mem, same⟩
    cases same
    obtain ⟨entry, found, -, same⟩ := sized.exists_entry mem
    exact ⟨stem, entry, found, rfl, same.symm⟩
  · rintro ⟨stem, entry, found, rfl, rfl⟩
    obtain ⟨bitmap, mem, rfl⟩ := Report.getElem?_bitmaps_iff.mp found
    obtain rfl := sized stem bitmap mem
    exact ⟨(stem, bitmap), mem, by rw [BitmapReport.bytes_ofBitmap]⟩

end Census.IsOfSpace

/-- The report of a census agrees with the files that are written of its bitmaps. It has the size of
the space and an entry for each bitmap, whose tiles are those that the file marks, and no other
report has the same text. So each file can be made again from the report, and there are no others. -/
theorem census_reported (corpus : Corpus) (loading : List Diagnostic) (output : String) :
    let census := corpus.census loading
    let report := Report.ofCensus census
    report.maxTiles = corpus.maxTiles ∧
      (∀ stem bitmap, (stem, bitmap) ∈ census.bitmaps →
        bitmap.bytes.length = corpus.maxTiles ∧ (∀ byte ∈ bitmap.bytes, byte = 0 ∨ byte = 1) ∧
          ∃ entry, report.bitmaps[stem]? = some entry ∧ entry.IsOfSpace corpus.maxTiles ∧
            ∀ tile, bitmap.bytes[tile]? = some 1 ↔ tile ∈ entry.tiles) ∧
      (∀ path bytes, .write path bytes ∈ (census.steps output).map (·.effect) ↔
        (∃ stem entry, report.bitmaps[stem]? = some entry ∧ path = bitmapPath output stem ∧
          bytes = entry.bytes report.maxTiles) ∨
        path = reportPath output ∧ bytes = Text.Utf8.encode report.text) ∧
      ∀ other : Report, Text.Utf8.encode other.text = Text.Utf8.encode report.text →
        other = report := by
  intro census report
  have sized : census.IsOfSpace corpus.maxTiles := corpus.isOfSpace_census loading
  refine ⟨sized.maxTiles_report, fun stem bitmap mem => ?_, fun path bytes => ?_,
    fun other same => Report.text_injective (Text.Utf8.encode_injective same)⟩
  · obtain ⟨entry, found, listed, same⟩ := sized.exists_entry mem
    rw [← same]
    refine ⟨by simp [BitmapReport.bytes], fun byte written => ?_, entry, found, listed, ?_⟩
    · obtain ⟨tile, -, rfl⟩ := List.mem_map.mp written
      split
      · exact .inr rfl
      · exact .inl rfl
    · exact fun tile => BitmapReport.getElem?_bytes_eq_one_iff listed
  · rw [sized.maxTiles_report]
    exact sized.write_mem_steps_iff

end TileCensus
