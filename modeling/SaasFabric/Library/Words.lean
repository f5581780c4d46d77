import Mathlib.Data.List.DropRight
import Mathlib.Data.List.Infix
import Mathlib.Tactic.Common

/-!
# The words of a text

A text falls into words at its breaks.  A word stands at a place in the text, between what ends in
a break and what starts with one, and the words before the place and after it are those of the two
parts.
-/

namespace SaasFabric
namespace Library

variable {α : Type} (isBreak : α → Bool)

/-- The pieces between breaks, but for the empty ones. -/
def words (text : List α) : List (List α) := (text.splitOnP isBreak).filter (!·.isEmpty)

/-- Something, and no break in it. -/
structure IsWord (word : List α) : Prop where
  nonempty : word ≠ []
  unbroken : ∀ c ∈ word, isBreak c = false

/-- Nothing, or a break at the end. -/
def EndsAtBreak (text : List α) : Prop := ∀ c ∈ text.getLast?, isBreak c = true

/-- Nothing, or a break at the start. -/
def StartsAtBreak (text : List α) : Prop := ∀ c ∈ text.head?, isBreak c = true

variable {isBreak}

@[simp] theorem words_nil : words isBreak ([] : List α) = [] := by
  unfold words
  rw [List.splitOnP_nil]
  rfl

theorem words_append_break {c : α} (h : isBreak c = true) (before after : List α) :
    words isBreak (before ++ c :: after) = words isBreak before ++ words isBreak after := by
  unfold words
  rw [List.splitOnP_append_cons before after h, List.filter_append]

theorem words_cons_break {c : α} (h : isBreak c = true) (text : List α) :
    words isBreak (c :: text) = words isBreak text := by
  simpa using words_append_break h [] text

theorem words_concat_break {c : α} (h : isBreak c = true) (text : List α) :
    words isBreak (text ++ [c]) = words isBreak text := by
  simpa using words_append_break h text []

/-- Breaks alone hold no word. -/
theorem words_gap {gap : List α} (h : ∀ c ∈ gap, isBreak c = true) (text : List α) :
    words isBreak (gap ++ text) = words isBreak text := by
  induction gap with
  | nil => rfl
  | cons c gap ih =>
      rw [List.cons_append, words_cons_break (h c List.mem_cons_self)]
      exact ih fun d hd => h d (List.mem_cons_of_mem c hd)

theorem words_of_isWord {word : List α} (h : IsWord isBreak word) :
    words isBreak word = [word] := by
  unfold words
  rw [List.splitOnP_eq_singleton h.unbroken]
  simp [h.nonempty]

/-- A word at its place. -/
theorem words_around {before word after : List α} (hbefore : EndsAtBreak isBreak before)
    (hword : IsWord isBreak word) (hafter : StartsAtBreak isBreak after) :
    words isBreak (before ++ (word ++ after)) =
      words isBreak before ++ word :: words isBreak after := by
  have hstart : words isBreak (before ++ word) = words isBreak before ++ [word] := by
    rcases List.eq_nil_or_concat before with rfl | ⟨first, c, rfl⟩
    · rw [words_nil]
      exact words_of_isWord hword
    · have hbreak : isBreak c = true := hbefore c (by simp)
      rw [List.concat_eq_append, List.append_assoc, List.singleton_append,
        words_append_break hbreak, words_of_isWord hword, words_concat_break hbreak]
  cases after with
  | nil => rw [List.append_nil, hstart, words_nil]
  | cons c after =>
      have hbreak : isBreak c = true := hafter c rfl
      rw [← List.append_assoc, words_append_break hbreak, hstart, words_cons_break hbreak,
        List.append_assoc, List.singleton_append]

/-- The first word of a text stands after nothing but breaks. -/
theorem exists_first {text word : List α} {rest : List (List α)}
    (h : words isBreak text = word :: rest) :
    ∃ gap after, text = gap ++ (word ++ after) ∧ (∀ c ∈ gap, isBreak c = true) ∧
      IsWord isBreak word ∧ StartsAtBreak isBreak after ∧ words isBreak after = rest := by
  have hgap : ∀ c ∈ text.takeWhile isBreak, isBreak c = true := fun c hc =>
    List.mem_takeWhile_imp hc
  have hsplit : text.takeWhile isBreak ++ text.dropWhile isBreak = text :=
    List.takeWhile_append_dropWhile
  generalize text.takeWhile isBreak = gap at hgap hsplit
  generalize hrest : text.dropWhile isBreak = later at hsplit
  rw [← hsplit, words_gap hgap] at h
  have hlater : (later.takeWhile fun c => !isBreak c) ++ (later.dropWhile fun c => !isBreak c) =
      later := List.takeWhile_append_dropWhile
  have hafter : StartsAtBreak isBreak (later.dropWhile fun c => !isBreak c) := by
    intro c hc
    have hnot := List.head?_dropWhile_not (fun c => !isBreak c) later
    rw [Option.mem_def] at hc
    rw [hc] at hnot
    simpa using hnot
  have hunbroken : ∀ c ∈ later.takeWhile (fun c => !isBreak c), isBreak c = false := by
    intro c hc
    simpa using List.mem_takeWhile_imp hc
  have hnonempty : later.takeWhile (fun c => !isBreak c) ≠ [] := by
    intro hnil
    -- What is left would be empty, or start with a break that was dropped.
    cases later with
    | nil =>
        rw [words_nil] at h
        cases h
    | cons c later =>
        have hbreak := List.head?_dropWhile_not isBreak text
        rw [hrest] at hbreak
        simp only [List.head?_cons] at hbreak
        rw [List.takeWhile_cons, hbreak] at hnil
        cases hnil
  have hword : IsWord isBreak (later.takeWhile fun c => !isBreak c) := ⟨hnonempty, hunbroken⟩
  generalize later.takeWhile (fun c => !isBreak c) = first at hlater hword
  generalize later.dropWhile (fun c => !isBreak c) = after at hlater hafter
  have hwords := @words_around α isBreak [] first after nofun hword hafter
  rw [List.nil_append, hlater, words_nil, List.nil_append, h] at hwords
  obtain ⟨rfl, rfl⟩ := List.cons.inj hwords
  exact ⟨gap, after, by rw [hlater, hsplit], hgap, hword, hafter, rfl⟩

/-- Every word of a text stands at a place in it. -/
theorem exists_around {text word : List α} {first last : List (List α)}
    (h : words isBreak text = first ++ word :: last) :
    ∃ before after, text = before ++ (word ++ after) ∧ EndsAtBreak isBreak before ∧
      IsWord isBreak word ∧ StartsAtBreak isBreak after ∧ words isBreak before = first ∧
        words isBreak after = last := by
  have hnone : ∀ gap : List α, (∀ c ∈ gap, isBreak c = true) → words isBreak gap = [] := by
    intro gap hgap
    rw [← List.append_nil gap, words_gap hgap, words_nil]
  have hends : ∀ gap : List α, (∀ c ∈ gap, isBreak c = true) → EndsAtBreak isBreak gap :=
    fun gap hgap c hc => hgap c (List.mem_of_mem_getLast? hc)
  induction first generalizing text with
  | nil =>
      obtain ⟨gap, after, rfl, hgap, hword, hafter, hlast⟩ := exists_first h
      exact ⟨gap, after, rfl, hends gap hgap, hword, hafter, hnone gap hgap, hlast⟩
  | cons other first ih =>
      obtain ⟨gap, rest, rfl, hgap, hother, hrest, hwords⟩ := exists_first h
      obtain ⟨before, after, rfl, hbefore, hword, hafter, hfirst, hlast⟩ := ih hwords
      have hstarts : StartsAtBreak isBreak before := by
        intro c hc
        refine hrest c ?_
        rw [Option.mem_def] at hc
        rw [Option.mem_def, List.head?_append, hc]
        rfl
      have hnonempty : before ≠ [] := by
        rintro rfl
        obtain ⟨c, others, hcons⟩ := List.exists_cons_of_ne_nil hword.nonempty
        have hbreak := hrest c (by rw [hcons]; rfl)
        rw [hword.unbroken c (by rw [hcons]; exact List.mem_cons_self)] at hbreak
        cases hbreak
      refine ⟨gap ++ (other ++ before), after, by simp only [List.append_assoc], ?_, hword, hafter,
        ?_, hlast⟩
      · intro c hc
        refine hbefore c ?_
        rw [← List.append_assoc, List.getLast?_append] at hc
        cases hget : before.getLast? with
        | none => exact absurd (List.getLast?_eq_none_iff.mp hget) hnonempty
        | some d =>
            rw [hget] at hc
            exact hc
      · rw [words_around (hends gap hgap) hother hstarts, hfirst, hnone gap hgap]
        rfl

theorem isWord_of_mem {text word : List α} (h : word ∈ words isBreak text) :
    IsWord isBreak word := by
  obtain ⟨first, last, hwords⟩ := List.append_of_mem h
  obtain ⟨-, -, -, -, hword, -⟩ := exists_around hwords
  exact hword

/-- Where a piece without a break goes back to what ends in a break, it does so to one place. -/
theorem cut_unique {first second rest other : List α} (hfirst : EndsAtBreak isBreak first)
    (hsecond : EndsAtBreak isBreak second) (hrest : ∀ c ∈ rest, isBreak c = false)
    (hother : ∀ c ∈ other, isBreak c = false) (h : first ++ rest = second ++ other) :
    first = second ∧ rest = other := by
  have hnone : ∀ {shorter longer piece : List α}, EndsAtBreak isBreak longer →
      longer = shorter ++ piece → (∀ c ∈ piece, isBreak c = false) → piece = [] := by
    intro shorter longer piece hends hlonger hpiece
    rcases List.eq_nil_or_concat piece with rfl | ⟨before, c, rfl⟩
    · rfl
    · have hbreak := hends c (by rw [hlonger]; simp)
      rw [hpiece c (by simp)] at hbreak
      cases hbreak
  rcases List.append_eq_append_iff.mp h with ⟨piece, hlonger, hpiece⟩ | ⟨piece, hlonger, hpiece⟩
  · have hnil := hnone hsecond hlonger fun c hc => hrest c (by rw [hpiece]; simp [hc])
    rw [hnil, List.append_nil] at hlonger
    rw [hnil, List.nil_append] at hpiece
    exact ⟨hlonger.symm, hpiece⟩
  · have hnil := hnone hfirst hlonger fun c hc => hother c (by rw [hpiece]; simp [hc])
    rw [hnil, List.append_nil] at hlonger
    rw [hnil, List.nil_append] at hpiece
    exact ⟨hlonger, hpiece.symm⟩

/-- Words put side by side with a break between are those words. -/
theorem words_intercalate {c : α} (h : isBreak c = true) {listed : List (List α)}
    (hlisted : ∀ word ∈ listed, IsWord isBreak word) :
    words isBreak (([c] : List α).intercalate listed) = listed := by
  induction listed with
  | nil => exact words_nil
  | cons word listed ih =>
      have hrest := ih fun other hother => hlisted other (List.mem_cons_of_mem _ hother)
      have hword := words_of_isWord (hlisted word List.mem_cons_self)
      cases listed with
      | nil => simpa using hword
      | cons other listed =>
          rw [List.intercalate_cons_cons, List.append_assoc, List.singleton_append,
            words_append_break h, hword, hrest]
          rfl

/-! ## The word around a piece -/

section Around

variable (isBreak)

/-- What is unbroken right before a place, -/
def wordBefore (before : List α) : List α := before.rtakeWhile fun c => !isBreak c

/-- what comes before that, -/
def frontOf (before : List α) : List α := before.rdropWhile fun c => !isBreak c

/-- what is unbroken right after a place, -/
def wordAfter (after : List α) : List α := after.takeWhile fun c => !isBreak c

/-- and what comes after that. -/
def backOf (after : List α) : List α := after.dropWhile fun c => !isBreak c

variable {isBreak}

theorem frontOf_append_wordBefore (before : List α) :
    frontOf isBreak before ++ wordBefore isBreak before = before :=
  List.rdropWhile_append_rtakeWhile

theorem wordAfter_append_backOf (after : List α) :
    wordAfter isBreak after ++ backOf isBreak after = after :=
  List.takeWhile_append_dropWhile

theorem unbroken_wordBefore (before : List α) :
    ∀ c ∈ wordBefore isBreak before, isBreak c = false := by
  intro c hc
  simpa using List.mem_rtakeWhile_imp hc

theorem unbroken_wordAfter (after : List α) :
    ∀ c ∈ wordAfter isBreak after, isBreak c = false := by
  intro c hc
  simpa using List.mem_takeWhile_imp hc

theorem endsAtBreak_frontOf (before : List α) : EndsAtBreak isBreak (frontOf isBreak before) := by
  intro c hc
  have hne : frontOf isBreak before ≠ [] := by
    rintro hnil
    rw [hnil] at hc
    cases hc
  have hlast := List.rdropWhile_last_not (fun c => !isBreak c) before hne
  rw [Option.mem_def, List.getLast?_eq_some_getLast hne, Option.some.injEq] at hc
  change ¬ (!isBreak ((frontOf isBreak before).getLast hne)) = true at hlast
  rw [hc] at hlast
  simpa using hlast

theorem startsAtBreak_backOf (after : List α) : StartsAtBreak isBreak (backOf isBreak after) := by
  intro c hc
  have hnot := List.head?_dropWhile_not (fun c => !isBreak c) after
  change c ∈ (after.dropWhile fun c => !isBreak c).head? at hc
  rw [Option.mem_def] at hc
  rw [hc] at hnot
  simpa using hnot

/-- A text is what comes before the word around a piece, the word, and what comes after it. -/
theorem around_eq (before piece after : List α) :
    before ++ (piece ++ after) = frontOf isBreak before ++
      ((wordBefore isBreak before ++ (piece ++ wordAfter isBreak after)) ++
        backOf isBreak after) := by
  have hbefore := @frontOf_append_wordBefore α isBreak before
  have hafter := @wordAfter_append_backOf α isBreak after
  calc before ++ (piece ++ after)
      = (frontOf isBreak before ++ wordBefore isBreak before) ++
          (piece ++ (wordAfter isBreak after ++ backOf isBreak after)) := by rw [hbefore, hafter]
    _ = _ := by simp only [List.append_assoc]

theorem isWord_around {piece : List α} (h : IsWord isBreak piece) (before after : List α) :
    IsWord isBreak (wordBefore isBreak before ++ (piece ++ wordAfter isBreak after)) := by
  refine ⟨by simp [h.nonempty], fun c hc => ?_⟩
  rcases List.mem_append.mp hc with hc | hc
  · exact unbroken_wordBefore before c hc
  · rcases List.mem_append.mp hc with hc | hc
    · exact h.unbroken c hc
    · exact unbroken_wordAfter after c hc

/-- The words of a text, at the word around a piece. -/
theorem words_around_piece {piece : List α} (h : IsWord isBreak piece) (before after : List α) :
    words isBreak (before ++ (piece ++ after)) = words isBreak (frontOf isBreak before) ++
      (wordBefore isBreak before ++ (piece ++ wordAfter isBreak after)) ::
        words isBreak (backOf isBreak after) := by
  rw [@around_eq α isBreak before piece after]
  exact words_around (endsAtBreak_frontOf before) (isWord_around h before after)
    (startsAtBreak_backOf after)

end Around

end Library
end SaasFabric
