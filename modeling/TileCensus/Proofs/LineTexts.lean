import TileCensus.Proofs.DefinitionTokens
import TileCensus.Proofs.LinePlaces
import TileCensus.Proofs.Occurrences
import TileCensus.Proofs.TableNames

/-!
# Texts that fit a line

A text fits a line if it can be written as one and read back (`FitsLine`, `lines_join`): it has no
line feed in it and no carriage return at its end. Texts that fit can be put together to one that
does, and a text without a blank fits.

What is read of an input fits. Words, tokens and the names in them have no blank, and neither have
numbers. A cleaned line may have blanks but is trimmed, and cleaning adds nothing but spaces to what
was one line before (`fitsLine_clean`).
-/

namespace TileCensus

open Script Text

/-! ## Texts that fit a line -/

namespace Text

/-- A text that is read as the line it was written as: it has no line feed in it, and no carriage
return at its end, which would be taken for a part of the line's ending. -/
def FitsLine (text : String) : Prop :=
  '\n' ∉ text.toList ∧ text.toList.getLast? ≠ some '\r'

instance (text : String) : Decidable (FitsLine text) := inferInstanceAs (Decidable (_ ∧ _))

/-- A text without a blank. -/
def Unblanked (text : String) : Prop := ∀ c ∈ text.toList, ¬isBlank c = true

theorem FitsLine.append {first second : String} (fits : FitsLine first)
    (also : FitsLine second) : FitsLine (first ++ second) := by
  refine ⟨?_, ?_⟩
  · simpa using ⟨fits.1, also.1⟩
  · rw [String.toList_append, List.getLast?_append]
    cases ending : second.toList.getLast? with
    | none => exact fits.2
    | some c => simpa [ending] using also.2

theorem Unblanked.fitsLine {text : String} (visible : Unblanked text) : FitsLine text := by
  refine ⟨fun feed => visible _ feed (by decide), fun ending => ?_⟩
  exact visible _ (List.mem_of_getLast? ending) (by decide)

theorem unblanked_nat (n : Nat) : Unblanked (toString n) := by
  intro c mem blank
  exact not_isDigit_of_isBlank blank (isDigit_of_mem_toString mem)

theorem unblanked_int (n : Int) : Unblanked (toString n) := by
  cases n with
  | ofNat n => exact unblanked_nat n
  | negSucc n =>
    intro c mem
    have signed : c = '-' ∨ c ∈ (toString (n + 1)).toList := by
      simpa [Int.repr] using mem
    rcases signed with rfl | mem
    · decide
    · exact unblanked_nat (n + 1) c mem

/-! ## Lines and their parts -/

theorem not_mem_of_mem_linesFrom {text line before : List Char} (start : '\n' ∉ before)
    (mem : line ∈ linesFrom before text) : '\n' ∉ line := by
  induction text generalizing before with
  | nil =>
    obtain ⟨-, rfl⟩ := mem_finishRun_iff.mp mem
    simpa using start
  | cons c text ih =>
    rw [linesFrom] at mem
    split at mem
    next =>
      rcases List.mem_cons.mp mem with rfl | mem
      · unfold finishLine
        split <;> simp_all
      · exact ih List.not_mem_nil mem
    next other =>
      refine ih ?_ mem
      simpa [eq_comm, other] using start

/-- No line of a text has a line feed in it. -/
theorem not_mem_of_mem_lines {text : String} {line : List Char} (mem : line ∈ lines text) :
    '\n' ∉ line :=
  not_mem_of_mem_linesFrom List.not_mem_nil mem

theorem linesFrom_append_feed {before text rest : List Char} (feed : '\n' ∉ text) :
    linesFrom before (text ++ '\n' :: rest) =
      finishLine (text.reverse ++ before) :: linesFrom [] rest := by
  induction text generalizing before with
  | nil => simp [linesFrom]
  | cons c text ih =>
    have other : c ≠ '\n' := fun same => feed (same ▸ List.mem_cons_self)
    rw [List.cons_append, linesFrom, if_neg other, ih (mt (List.mem_cons_of_mem c) feed)]
    simp

theorem FitsLine.finishLine_reverse {text : String} (fits : FitsLine text) :
    finishLine text.toList.reverse = text.toList := by
  unfold finishLine
  split
  next line back =>
    have ending := fits.2
    rw [← List.head?_reverse, back] at ending
    exact absurd rfl ending
  next => exact List.reverse_reverse _

/-- Texts that fit a line each, with a line feed after each of them, are read back as lines. -/
theorem lines_join {texts : List String} (fit : ∀ text ∈ texts, FitsLine text) :
    lines (String.join (texts.map (· ++ "\n"))) = texts.map String.toList := by
  rw [lines, String.toList_join]
  induction texts with
  | nil => rfl
  | cons text texts ih =>
    obtain ⟨first, fit⟩ := List.forall_mem_cons.mp fit
    rw [List.map_cons, List.flatMap_cons, String.toList_append, List.append_assoc]
    change linesFrom [] (text.toList ++ '\n' :: List.flatMap _ _) = _
    rw [linesFrom_append_feed first.1, List.append_nil, first.finishLine_reverse, ih fit,
      List.map_cons]

theorem forall_mem_runsFrom {keep : Char → Bool} {run line : List Char}
    (kept : ∀ c ∈ run, keep c = true) :
    ∀ other ∈ runsFrom keep run line, ∀ c ∈ other, keep c = true := by
  have finish {run : List Char} (kept : ∀ c ∈ run, keep c = true) :
      ∀ other ∈ finishRun run, ∀ c ∈ other, keep c = true := by
    intro other mem
    obtain ⟨-, rfl⟩ := mem_finishRun_iff.mp mem
    simpa using kept
  induction line generalizing run with
  | nil => exact finish kept
  | cons c line ih =>
    rw [runsFrom]
    split
    next keeps => exact ih (List.forall_mem_cons.mpr ⟨keeps, kept⟩)
    next =>
      intro other mem
      rcases List.mem_append.mp mem with mem | mem
      · exact finish kept other mem
      · exact ih (by simp) other mem

theorem unblanked_of_mem_fields {line field : List Char} (mem : field ∈ fields line) :
    Unblanked (String.ofList field) := by
  intro c found
  rw [String.toList_ofList] at found
  simpa using forall_mem_runsFrom (by simp) field mem c found

theorem trimEnd_subset (line : List Char) : trimEnd line ⊆ line := by
  obtain ⟨blanks, -, split⟩ := exists_trimEnd_append line
  intro c mem
  rw [← split]
  exact List.mem_append_left blanks mem

theorem trim_subset (line : List Char) : trim line ⊆ line :=
  List.Subset.trans (trimEnd_subset _) (List.dropWhile_sublist isBlank).subset

/-- A line that is trimmed ends in no blank, so it fits if it has no line feed in it. -/
theorem fitsLine_trimEnd {line : List Char} (feed : '\n' ∉ line) :
    FitsLine (String.ofList (trimEnd line)) := by
  rw [FitsLine, String.toList_ofList]
  refine ⟨fun mem => feed (trimEnd_subset line mem), fun ending => ?_⟩
  exact not_endsBlank_trimEnd line ⟨'\r', ending, by decide⟩

end Text

/-! ## Names, tokens and cleaned lines -/

theorem Script.IsWord.unblanked {word : String} (isWord : IsWord word) : Unblanked word := by
  intro c mem
  rcases isWord with ⟨-, letters⟩ | ⟨digit, rest, signed, starts, letters⟩
  · exact not_isBlank_of_isWordChar (letters c mem)
  · rw [signed, List.mem_cons, List.mem_cons] at mem
    rcases mem with rfl | rfl | mem
    · decide
    · exact fun blank => not_isDigit_of_isBlank blank starts
    · exact not_isBlank_of_isWordChar (letters c mem)

theorem Script.fitsLine_clean {inComment : Bool} {line : List Char} (feed : '\n' ∉ line) :
    FitsLine (String.ofList (clean inComment line).text) := by
  have kept : '\n' ∉ (keptFrom (Region.atStart inComment) [] (trim line)).text := by
    intro mem
    rcases mem_of_mem_keptFrom mem with mem | mem | space
    · cases mem
    · exact feed (trim_subset line mem)
    · cases space
  have both := fitsLine_trimEnd (mt ((List.dropWhile_sublist isBlank).subset ·) kept)
  rw [clean_eq]
  cases endingFrom (Region.atStart inComment) [] (trim line) with
  | lineEnd => exact both
  | lineComment => exact both
  | payload => exact fitsLine_trimEnd kept

namespace Instance

theorem fitsLine_clean {line : List Char} (feed : '\n' ∉ line) :
    FitsLine (String.ofList (clean line)) := by
  refine Script.fitsLine_clean fun mem => feed (trim_subset line ?_)
  cases found : afterPlace? (trim line) with
  | none => rwa [found] at mem
  | some body =>
    obtain ⟨path, digits, -, written⟩ := afterPlace?_eq_some_iff.mp found
    rw [found, Option.getD_some] at mem
    rw [written]
    simp [mem]

theorem unblanked_stripIndex {token : String} (visible : Unblanked token) :
    Unblanked (stripIndex token) := by
  rcases names_iff.mpr (Eq.refl (stripIndex token)) with ⟨digits, -, -, written⟩ | ⟨same, -⟩
  · intro c mem
    exact visible c (written ▸ List.mem_append_left _ mem)
  · rwa [same]

end Instance

namespace Definition

theorem unblanked_of_mem_lineWords {line : List Char} {word : String}
    (mem : word ∈ lineWords line) : Unblanked word := by
  intro c found
  obtain ⟨d, brace, rfl⟩ | ⟨-, plain⟩ := mem_lineWordsFrom_cases (by simp) mem
  · obtain rfl : c = d := by simpa using found
    exact not_isBlank_of_isBrace brace
  · exact (plain c found).2

theorem unblanked_of_mem_tokens {text : String} {token : Token} (mem : token ∈ tokens text) :
    Unblanked token.word := by
  obtain ⟨⟨line, number⟩, -, mem⟩ := List.mem_flatMap.mp mem
  obtain ⟨word, listed, rfl⟩ := List.mem_map.mp mem
  exact unblanked_of_mem_lineWords listed

end Definition

end TileCensus
