import Mathlib.Computability.Language
import VolantMQ.Topics.Retained

/-!
# The grammar of topic filters

`TopicSubscribeRegexp` is the regular expression that, by its comment, all subscriptions must be
validated with. Here it is the language that it describes, over bytes: none of its characters is
part of a longer UTF-8 sequence. Its words are the filters in which `+` and `#` stand for whole
levels only and `#` only for the last.
-/

namespace VolantMQ.Topics

open Lib Packet

/-- `[^+#]` -/
def plainByte : Language UInt8 := {word | ∃ byte, byte ≠ 0x2B ∧ byte ≠ 0x23 ∧ word = [byte]}

/-- `[^+#]*|\+` -/
def levelRegexp : Language UInt8 := KStar.kstar plainByte + {SWC}

/-- `^(([^+#]*|\+)(/([^+#]*|\+))*(/#)?|#)$` -/
def TopicSubscribeRegexp : Language UInt8 :=
  levelRegexp * KStar.kstar ({[0x2F]} * levelRegexp) * ({[0x2F] ++ MWC} + 1) + {MWC}

theorem mem_kstar_plainByte {word : GoString} :
    word ∈ KStar.kstar plainByte ↔ 0x2B ∉ word ∧ 0x23 ∉ word := by
  rw [Language.mem_kstar]
  constructor
  · rintro ⟨pieces, rfl, plain⟩
    have each : ∀ byte ∈ pieces.flatten, byte ≠ 0x2B ∧ byte ≠ 0x23 := by
      intro byte member
      rcases List.mem_flatten.mp member with ⟨piece, inPieces, inPiece⟩
      rcases plain piece inPieces with ⟨other, noPlus, noHash, rfl⟩
      rw [List.mem_singleton.mp inPiece]
      exact ⟨noPlus, noHash⟩
    exact ⟨fun member => (each _ member).1 rfl, fun member => (each _ member).2 rfl⟩
  · rintro ⟨noPlus, noHash⟩
    refine ⟨word.map fun byte => [byte], ?_, ?_⟩
    · rw [← List.flatMap_def, List.flatMap_singleton']
    · intro piece member
      rcases List.mem_map.mp member with ⟨byte, inWord, rfl⟩
      exact ⟨byte, fun plus => noPlus (plus ▸ inWord), fun hash => noHash (hash ▸ inWord), rfl⟩

/-- A level without wildcard characters, or `+`. -/
def OrdinaryLevel (level : Level) : Prop := (0x2B ∉ level ∧ 0x23 ∉ level) ∨ level = SWC

theorem split_append_separator (front back : GoString) :
    split (front ++ 0x2F :: back) = split front ++ split back :=
  List.splitOnP_append_cons front back (by decide)

/-- A level of a filter has no byte that the filter does not have. -/
theorem mem_of_mem_split {filter : GoString} {level : Level} (member : level ∈ split filter)
    {byte : UInt8} (inside : byte ∈ level) : byte ∈ filter := by
  have joined := @mem_intercalate_of_mem [0x2F] _ _ _ member inside
  rwa [split, List.intercalate_splitOn] at joined

theorem ordinary_of_mem_levelRegexp {word : GoString} (found : word ∈ levelRegexp) :
    ∀ level ∈ split word, OrdinaryLevel level := by
  intro level member
  rcases found with plain | rfl
  · rcases mem_kstar_plainByte.mp plain with ⟨noPlus, noHash⟩
    exact .inl ⟨fun inside => noPlus (mem_of_mem_split member inside),
      fun inside => noHash (mem_of_mem_split member inside)⟩
  · have whole : split SWC = [SWC] := by decide
    rw [whole, List.mem_singleton] at member
    exact .inr member

theorem mem_levelRegexp_of_ordinary {level : Level} (ordinary : OrdinaryLevel level) :
    level ∈ levelRegexp := by
  rcases ordinary with plain | rfl
  · exact .inl (mem_kstar_plainByte.mpr plain)
  · exact .inr rfl

/-- The words of the part of the expression before `(/#)?`. -/
theorem mem_levels_iff {word : GoString} :
    word ∈ levelRegexp * KStar.kstar ({[0x2F]} * levelRegexp) ↔
      ∀ level ∈ split word, OrdinaryLevel level := by
  constructor
  · intro found
    rcases Language.mem_mul.mp found with ⟨first, isLevel, rest, starred, rfl⟩
    rcases Language.mem_kstar.mp starred with ⟨pieces, rfl, later⟩
    clear found starred
    have start := ordinary_of_mem_levelRegexp isLevel
    clear isLevel
    induction pieces generalizing first with
    | nil => simpa using start
    | cons piece pieces ih =>
        rcases Language.mem_mul.mp (later piece List.mem_cons_self) with
          ⟨slash, rfl, next, isLevel, rfl⟩
        have longer : ∀ level ∈ split (first ++ 0x2F :: next), OrdinaryLevel level := by
          rw [split_append_separator]
          intro level member
          rcases List.mem_append.mp member with inFirst | inNext
          · exact start level inFirst
          · exact ordinary_of_mem_levelRegexp isLevel level inNext
        have whole := ih (first ++ 0x2F :: next)
          (fun other member => later other (List.mem_cons_of_mem _ member)) longer
        simpa using whole
  · intro ordinary
    cases levels : split word with
    | nil => exact absurd levels (split_ne_nil word)
    | cons first rest =>
        rw [levels] at ordinary
        have joined : word = first ++ (rest.map fun level => 0x2F :: level).flatten := by
          have whole : [0x2F].intercalate (split word) = word := List.intercalate_splitOn _
          rw [← whole, levels]
          clear whole levels ordinary
          induction rest generalizing first with
          | nil => simp [List.intercalate]
          | cons next rest ih =>
              rw [List.intercalate_cons_cons, ih next]
              simp
        rw [joined]
        refine Language.mem_mul.mpr ⟨first, mem_levelRegexp_of_ordinary
          (ordinary first List.mem_cons_self), _, Language.mem_kstar.mpr ⟨_, rfl, ?_⟩, rfl⟩
        intro piece member
        rcases List.mem_map.mp member with ⟨level, inRest, rfl⟩
        exact Language.mem_mul.mpr ⟨[0x2F], rfl, level, mem_levelRegexp_of_ordinary
          (ordinary level (List.mem_cons_of_mem _ inRest)), rfl⟩

/-- A filter is well formed if it has ordinary levels only, but for a `#` at the end. -/
theorem wellFormed_iff_levels {filter : GoString} :
    WellFormedFilter filter ↔ ∃ front last, split filter = front ++ last ∧
      (∀ level ∈ front, OrdinaryLevel level) ∧ (last = [] ∨ last = [MWC]) := by
  have notOrdinary : ¬OrdinaryLevel MWC := by
    unfold OrdinaryLevel
    decide
  constructor
  · intro wellFormed
    have ordinary : ∀ level ∈ split filter, level ≠ MWC → OrdinaryLevel level := by
      intro level member other
      by_cases plus : 0x2B ∈ level
      · exact .inr (wellFormed.single level member plus)
      · exact .inl ⟨plus, fun hash => other (wellFormed.multi level member hash)⟩
    have levels := List.dropLast_append_getLast (split_ne_nil filter)
    have front : ∀ level ∈ (split filter).dropLast, OrdinaryLevel level := by
      intro level member
      apply ordinary level (List.mem_of_mem_dropLast member)
      rintro rfl
      exact wellFormed.last member
    by_cases last : (split filter).getLast (split_ne_nil filter) = MWC
    · exact ⟨_, _, levels.symm, front, .inr (by rw [last])⟩
    · refine ⟨split filter, [], by simp, ?_, .inl rfl⟩
      intro level member
      rw [← levels] at member
      rcases List.mem_append.mp member with inFront | isLast
      · exact front level inFront
      · rw [List.mem_singleton.mp isLast]
        exact ordinary _ (List.getLast_mem _) last
  · rintro ⟨front, last, levels, ordinary, ends⟩
    have formed : ∀ level ∈ split filter,
        (0x2B ∈ level → level = SWC) ∧ (0x23 ∈ level → level = MWC) := by
      intro level member
      rw [levels] at member
      rcases List.mem_append.mp member with inFront | inLast
      · rcases ordinary level inFront with plain | rfl
        · exact ⟨fun inside => absurd inside plain.1, fun inside => absurd inside plain.2⟩
        · exact ⟨fun _ => rfl, fun inside => absurd inside (by decide)⟩
      · rcases ends with rfl | rfl
        · exact absurd inLast List.not_mem_nil
        · rw [List.mem_singleton.mp inLast]
          exact ⟨fun inside => absurd inside (by decide), fun _ => rfl⟩
    refine ⟨fun level member => (formed level member).1, fun level member => (formed level member).2,
      ?_⟩
    intro inside
    apply notOrdinary
    apply ordinary
    rw [levels] at inside
    rcases ends with rfl | rfl
    · rw [List.append_nil] at inside
      exact List.mem_of_mem_dropLast inside
    · rwa [List.dropLast_concat] at inside

/-- The regular expression describes the well-formed filters. -/
theorem mem_TopicSubscribeRegexp {filter : GoString} :
    filter ∈ TopicSubscribeRegexp ↔ WellFormedFilter filter := by
  have single : split MWC = [MWC] := by decide
  have closed : ∀ front : GoString, split (front ++ ([0x2F] ++ MWC)) = split front ++ [MWC] := by
    intro front
    rw [List.singleton_append, split_append_separator, single]
  rw [wellFormed_iff_levels]
  constructor
  · rintro (found | rfl)
    · rcases Language.mem_mul.mp found with ⟨front, isFront, back, isBack, rfl⟩
      have ordinary := mem_levels_iff.mp isFront
      rcases isBack with rfl | rfl
      · exact ⟨split front, [MWC], closed front, ordinary, .inr rfl⟩
      · exact ⟨split front, [], by simp, ordinary, .inl rfl⟩
    · exact ⟨[], [MWC], single, by simp, .inr rfl⟩
  · rintro ⟨front, last, levels, ordinary, rfl | rfl⟩
    · rw [List.append_nil] at levels
      rw [← levels] at ordinary
      exact .inl (Language.mem_mul.mpr
        ⟨filter, mem_levels_iff.mpr ordinary, [], .inr rfl, List.append_nil _⟩)
    · by_cases alone : front = []
      · subst alone
        exact .inr (split_injective (levels.trans single.symm))
      · have separated : ∀ level ∈ front, 0x2F ∉ level := by
          intro level member
          apply separator_notMem
          rw [levels]
          exact List.mem_append_left _ member
        rcases exists_split_eq alone separated with ⟨word, rfl⟩
        have same : filter = word ++ ([0x2F] ++ MWC) :=
          split_injective (levels.trans (closed word).symm)
        rw [same]
        exact .inl (Language.mem_mul.mpr
          ⟨word, mem_levels_iff.mpr ordinary, _, .inl rfl, rfl⟩)

end VolantMQ.Topics
