import SaasFabric.Platform.Diagnostic

/-!
# What a shown text holds

Where a value that stands once in a text is found in what is shown of it, and where it is not.
-/

namespace SaasFabric
namespace Platform
namespace Diagnostic

open Library (words wordBefore frontOf wordAfter backOf IsWord EndsAtBreak)

/-! ## The words shown -/

/-- `previous_named_a_credential`, after some words. -/
def namedAfter : Bool → List Word → Bool
  | named, [] => named
  | _, word :: rest => namedAfter (introducesACredential word) rest

theorem redactWords_cons (named : Bool) (word : Word) (rest : List Word) :
    redactWords named (word :: rest) =
      shown named word :: redactWords (introducesACredential word) rest := by
  rw [redactWords, shown_eq]

theorem redactWords_append (named : Bool) (first last : List Word) :
    redactWords named (first ++ last) =
      redactWords named first ++ redactWords (namedAfter named first) last := by
  induction first generalizing named with
  | nil => rfl
  | cons word first ih =>
      rw [List.cons_append, redactWords_cons, redactWords_cons, ih]
      rfl

/-- Each word shown is what is shown of a word. -/
theorem exists_of_redactWords {named : Bool} {listed first last : List Word} {word : Word}
    (h : redactWords named listed = first ++ word :: last) :
    ∃ earlier source later, listed = earlier ++ source :: later ∧
      redactWords named earlier = first ∧ shown (namedAfter named earlier) source = word := by
  induction first generalizing named listed with
  | nil =>
      cases listed with
      | nil => cases h
      | cons source later =>
          rw [redactWords_cons, List.nil_append, List.cons.injEq] at h
          exact ⟨[], source, later, rfl, rfl, h.1⟩
  | cons other first ih =>
      cases listed with
      | nil => cases h
      | cons source rest =>
          rw [redactWords_cons, List.cons_append, List.cons.injEq] at h
          obtain ⟨earlier, found, later, rfl, hfirst, hword⟩ := ih h.2
          refine ⟨source :: earlier, found, later, rfl, ?_, hword⟩
          rw [redactWords_cons, h.1, hfirst]

/-- Words with a space after each. -/
def spaced (listed : List Word) : List Char := listed.flatMap (· ++ [' '])

/-- Words with a space before each. -/
def led (listed : List Word) : List Char := listed.flatMap (' ' :: ·)

theorem intercalate_eq (first : List Word) (word : Word) (last : List Word) :
    [' '].intercalate (first ++ word :: last) = spaced first ++ (word ++ led last) := by
  induction first with
  | nil =>
      induction last generalizing word with
      | nil => simp [spaced, led]
      | cons other last ih =>
          have hrest := ih other
          rw [List.nil_append] at hrest ⊢
          rw [List.intercalate_cons_cons, hrest]
          simp [spaced, led]
  | cons other first ih =>
      obtain ⟨next, rest, hnext⟩ := List.exists_cons_of_ne_nil
        (show first ++ word :: last ≠ [] by simp)
      rw [List.cons_append, hnext, List.intercalate_cons_cons, ← hnext, ih]
      simp [spaced]

/-- What holds no space stands in one of the words. -/
theorem exists_of_intercalate {listed : List Word} {value before after : List Char}
    (hvalue : value ≠ []) (hspace : ' ' ∉ value)
    (h : [' '].intercalate listed = before ++ (value ++ after)) :
    ∃ first front back last, listed = first ++ (front ++ (value ++ back)) :: last ∧
      before = spaced first ++ front := by
  induction listed generalizing before with
  | nil =>
      have hnil : before ++ (value ++ after) = [] := h.symm
      rw [List.append_eq_nil_iff, List.append_eq_nil_iff] at hnil
      exact absurd hnil.2.1 hvalue
  | cons word listed ih =>
      cases listed with
      | nil =>
          refine ⟨[], before, after, [], ?_, rfl⟩
          rw [← h]
          simp
      | cons other listed =>
          rw [List.intercalate_cons_cons, List.append_assoc, List.singleton_append] at h
          rcases List.append_eq_append_iff.mp h with ⟨gap, hbefore, hgap⟩ | ⟨gap, hword, hgap⟩
          · cases gap with
            | nil =>
                obtain ⟨c, rest, rfl⟩ := List.exists_cons_of_ne_nil hvalue
                rw [List.nil_append, List.cons_append, List.cons.injEq] at hgap
                exact absurd (hgap.1 ▸ List.mem_cons_self) hspace
            | cons c gap =>
                rw [List.cons_append, List.cons.injEq] at hgap
                obtain ⟨first, front, back, last, hlisted, hfront⟩ := ih hgap.2
                refine ⟨word :: first, front, back, last, by rw [hlisted]; rfl, ?_⟩
                rw [hbefore, hfront, ← hgap.1]
                simp [spaced]
          · rcases List.append_eq_append_iff.mp hgap with ⟨back, hback, -⟩ | ⟨back, hback, hnext⟩
            · exact ⟨[], before, back, other :: listed, by rw [hword, hback]; rfl, rfl⟩
            · cases back with
              | nil =>
                  rw [List.append_nil] at hback
                  refine ⟨[], before, [], other :: listed, ?_, rfl⟩
                  rw [hword, hback, List.append_nil]
                  rfl
              | cons c back =>
                  rw [List.cons_append, List.cons.injEq] at hnext
                  rw [hback, ← hnext.1] at hspace
                  simp at hspace

/-! ## At the cut -/

/-- A value is found in a capped text where it stands before the cut, or where the ellipsis ends
it. -/
theorem infix_cap_iff {value : List Char} (hvalue : value ≠ []) (text : List Char) :
    value <:+: cap text ↔
      (∃ before after, text = before ++ (value ++ after) ∧
        (text.length ≤ MAX ∨ (before ++ value).length ≤ MAX)) ∨
      MAX < text.length ∧ ∃ head, value = head ++ ['…'] ∧ head <:+ text.take MAX := by
  unfold cap
  split
  · next hshort =>
      constructor
      · rintro ⟨before, after, rfl⟩
        exact .inl ⟨before, after, by simp, .inl hshort⟩
      · rintro (⟨before, after, rfl, -⟩ | ⟨hlong, -⟩)
        · exact ⟨before, after, by simp⟩
        · omega
  · next hlong =>
      have hsplit := List.take_append_drop MAX text
      rw [List.infix_concat_iff, List.suffix_concat_iff]
      constructor
      -- What ends with the ellipsis is read off it; what comes before is found in the cut text.
      · rintro ((hnil | hends) | ⟨before, after, hcut⟩)
        · exact absurd hnil hvalue
        · exact .inr ⟨by omega, hends⟩
        · refine .inl ⟨before, after ++ text.drop MAX, ?_, .inr ?_⟩
          · rw [← List.append_assoc value, ← List.append_assoc before, ← List.append_assoc before,
              hcut, hsplit]
          · have hlength := congrArg List.length hcut
            rw [List.length_take, List.length_append] at hlength
            omega
      · rintro (⟨before, after, htext, hshort⟩ | ⟨-, hends⟩)
        · have hcut : (before ++ value).length ≤ MAX := hshort.resolve_left hlong
          refine .inr ⟨before, after.take (MAX - (before ++ value).length), ?_⟩
          rw [htext, ← List.append_assoc, List.take_append, List.take_of_length_le hcut]
        · exact .inl (.inr hends)

/-- A cut falls in a word, or right after one that is not the last. -/
theorem exists_cut {listed : List Word} {m : Nat} (h : m < ([' '].intercalate listed).length) :
    ∃ first word last k, listed = first ++ word :: last ∧ (spaced first).length + k = m ∧
      k ≤ word.length ∧ (k = word.length → last ≠ []) := by
  induction listed generalizing m with
  | nil => cases h
  | cons word listed ih =>
      cases listed with
      | nil =>
          have hword : m < word.length := by simpa using h
          exact ⟨[], word, [], m, rfl, by simp [spaced], by omega, fun hm => by omega⟩
      | cons other listed =>
          rw [List.intercalate_cons_cons, List.length_append, List.length_append,
            List.length_singleton] at h
          -- The space after a word counts as its end.
          by_cases hm : m ≤ word.length
          · exact ⟨[], word, other :: listed, m, rfl, by simp [spaced], hm,
              fun _ => List.cons_ne_nil _ _⟩
          · obtain ⟨first, found, last, k, hlisted, hlength, hk, hlast⟩ :=
              @ih (m - (word.length + 1)) (by omega)
            refine ⟨word :: first, found, last, k, by rw [hlisted]; rfl, ?_, hk, hlast⟩
            have hspaced : (spaced (word :: first)).length =
                word.length + 1 + (spaced first).length := by
              simp [spaced]
              omega
            omega

/-- A cut text is what comes before a piece that the cut falls in, and the start of the piece. -/
theorem take_in_piece {front piece back : List Char} {m : Nat} (hfront : front.length ≤ m)
    (hpiece : m ≤ front.length + piece.length) :
    (front ++ (piece ++ back)).take m = front ++ piece.take (m - front.length) := by
  rw [List.take_append, List.take_of_length_le hfront, List.take_append_of_le_length (by omega)]

/-- What holds no space and ends a text ends it after its last space. -/
theorem suffix_of_spaced {listed : List Word} {head piece : List Char} (hspace : ' ' ∉ head)
    (h : head <:+ spaced listed ++ piece) : head <:+ piece := by
  rcases List.suffix_or_suffix_of_suffix h (List.suffix_append _ piece) with hhead | hpiece
  · exact hhead
  · obtain ⟨more, rfl⟩ := hpiece
    -- A longer suffix would take in the space after the last word.
    rcases List.eq_nil_or_concat listed with rfl | ⟨first, word, rfl⟩
    · exact h
    · rw [List.suffix_append_self_iff, List.concat_eq_append] at h
      have hspaced : spaced (first ++ [word]) = (spaced first ++ word) ++ [' '] := by
        simp [spaced]
      rw [hspaced, List.suffix_concat_iff] at h
      rcases h with rfl | ⟨start, rfl, -⟩
      · exact List.suffix_refl _
      · simp at hspace

/-! ## Where a pattern first stands -/

theorem prefix_of_beforeSlice {pattern text kept : List Char}
    (h : beforeSlice pattern text = some kept) : kept ++ pattern <+: text := by
  induction text generalizing kept with
  | nil =>
      unfold beforeSlice at h
      split at h
      · next hempty =>
          rw [Option.some.injEq] at h
          rw [← h, List.isEmpty_iff.mp hempty]
          exact List.prefix_refl _
      · cases h
  | cons c text ih =>
      unfold beforeSlice at h
      split at h
      · next hstart =>
          rw [Option.some.injEq] at h
          rw [← h]
          exact List.isPrefixOf_iff_prefix.mp hstart
      · obtain ⟨rest, hrest, rfl⟩ := Option.map_eq_some_iff.mp h
        exact List.cons_prefix_cons.mpr ⟨rfl, ih hrest⟩

theorem exists_beforeSlice {pattern : List Char} (hpattern : pattern ≠ []) (before after : List Char) :
    ∃ kept, beforeSlice pattern (before ++ (pattern ++ after)) = some kept ∧
      kept.length ≤ before.length := by
  -- The search stops at the first place, which is this one or an earlier.
  induction before with
  | nil =>
      obtain ⟨c, rest, rfl⟩ := List.exists_cons_of_ne_nil hpattern
      refine ⟨[], ?_, Nat.le_refl 0⟩
      rw [List.nil_append, List.cons_append, beforeSlice, if_pos]
      exact List.isPrefixOf_iff_prefix.mpr (List.prefix_append (c :: rest) after)
  | cons c before ih =>
      rw [List.cons_append, beforeSlice]
      split
      · exact ⟨[], rfl, Nat.zero_le _⟩
      · obtain ⟨kept, hkept, hlength⟩ := ih
        refine ⟨c :: kept, by rw [hkept]; rfl, ?_⟩
        simpa using hlength

theorem beforeSlice_eq_none {pattern text : List Char} (hpattern : pattern ≠ []) :
    beforeSlice pattern text = none ↔ ¬ pattern <:+: text := by
  constructor
  · rintro hnone ⟨before, after, rfl⟩
    obtain ⟨kept, hkept, -⟩ := exists_beforeSlice hpattern before after
    rw [List.append_assoc, hkept] at hnone
    cases hnone
  · intro hnot
    cases hslice : beforeSlice pattern text with
    | none => rfl
    | some kept =>
        exact absurd ((List.suffix_append kept pattern).isInfix.trans
          (prefix_of_beforeSlice hslice).isInfix) hnot

theorem redact_of_some {text kept : List Char} (h : beforeSlice BEGIN text = some kept) :
    redact text = kept ++ marker := by
  unfold redact
  rw [h]

theorem redact_of_none {text : List Char} (h : beforeSlice BEGIN text = none) :
    redact text = [' '].intercalate (redactWords false (words isWhitespace text)) := by
  unfold redact
  rw [h]

/-! ## Where a value stands -/

/-- A value, and the one place it stands at. -/
structure OnceAt (before value after : List Char) : Prop where
  word : IsWord isWhitespace value
  once : ∀ front back, front ++ (value ++ back) = before ++ (value ++ after) → front = before

/-- How long the words shown are, with a space after each. -/
def lengthShown : Bool → List Word → Nat
  | _, [] => 0
  | named, word :: rest =>
      (shown named word).length + 1 + lengthShown (introducesACredential word) rest

theorem length_spaced (named : Bool) (listed : List Word) :
    (spaced (redactWords named listed)).length = lengthShown named listed := by
  induction listed generalizing named with
  | nil => rfl
  | cons word listed ih =>
      rw [redactWords_cons, lengthShown, ← ih]
      simp [spaced]
      omega

/-- Nothing is taken out of the word around a value that reaches as far as it. -/
def Bared (before value after : List Char) : Prop :=
  match beforeSlice BEGIN (before ++ (value ++ after)) with
  | some kept => (before ++ value).length ≤ kept.length
  | none =>
      ∀ kept ∈ markAt (namedAfter false (words isWhitespace (frontOf isWhitespace before)))
          (wordBefore isWhitespace before ++ (value ++ wordAfter isWhitespace after)),
        (wordBefore isWhitespace before ++ value).length ≤ kept

/-- How long what is shown of a text is, before it is cut. -/
def lengthRedacted (text : List Char) : Nat :=
  match beforeSlice BEGIN text with
  | some kept => (kept ++ marker).length
  | none => lengthShown false (words isWhitespace text) - 1

/-- What ends there in what is shown of a text is not cut off. -/
def Uncut (text : List Char) (finish : Nat) : Prop := lengthRedacted text ≤ MAX ∨ finish ≤ MAX

/-- Where a value ends in what is shown, if nothing is taken out for it. -/
def endShown (before value after : List Char) : Nat :=
  match beforeSlice BEGIN (before ++ (value ++ after)) with
  | some _ => (before ++ value).length
  | none => lengthShown false (words isWhitespace (frontOf isWhitespace before)) +
      (wordBefore isWhitespace before ++ value).length

/-- The cut comes after a value, where it would be shown. -/
def Reached (before value after : List Char) : Prop :=
  Uncut (before ++ (value ++ after)) (endShown before value after)

/-- How far into what is shown a part of a text comes, what is kept of it, and the marker where the
rest is taken out. -/
inductive Part (text : List Char) : Nat → List Char → List Char → Prop
  | block {kept : List Char} (h : beforeSlice BEGIN text = some kept) : Part text 0 kept marker
  | marked {first last : List Word} {word : Word} {kept : Nat}
      (hnone : beforeSlice BEGIN text = none)
      (h : words isWhitespace text = first ++ word :: last)
      (hmark : markAt (namedAfter false first) word = some kept) :
      Part text (lengthShown false first) (word.take kept) marker
  | whole {first last : List Word} {word : Word} (hnone : beforeSlice BEGIN text = none)
      (h : words isWhitespace text = first ++ word :: last)
      (hmark : markAt (namedAfter false first) word = none) :
      Part text (lengthShown false first) word []

/-- A value is read off a marker: it ends there in the marker, and starts in it or in what is kept
before it. -/
def EchoedAt (text value : List Char) (finish : Nat) : Prop :=
  ∃ place kept, Part text place kept marker ∧ ∃ front back,
    kept ++ marker = front ++ (value ++ back) ∧ kept.length < (front ++ value).length ∧
      place + (front ++ value).length = finish

/-- A value is read off a marker before the cut. -/
def Echoed (text value : List Char) : Prop :=
  ∃ finish, EchoedAt text value finish ∧ Uncut text finish

/-- A value is read off the ellipsis: the rest of it ends the part that is cut. -/
def Trailed (text value : List Char) : Prop :=
  MAX < lengthRedacted text ∧ ∃ head, value = head ++ ['…'] ∧ ∃ place kept mark,
    Part text place kept mark ∧ place ≤ MAX ∧ MAX ≤ place + (kept ++ mark).length ∧
      head <:+ (kept ++ mark).take (MAX - place)

/-! ## The parts shown -/

theorem shown_of_some {named : Bool} {word : Word} {kept : Nat}
    (h : markAt named word = some kept) : shown named word = word.take kept ++ marker := by
  unfold shown
  rw [h]

theorem shown_of_none {named : Bool} {word : Word} (h : markAt named word = none) :
    shown named word = word := by
  unfold shown
  rw [h]

/-- What is found in a kept start and a marker stands in the start, or ends in the marker. -/
theorem found_in_marked {kept front value back : List Char}
    (h : kept ++ marker = front ++ (value ++ back)) :
    (∃ rest, kept = front ++ (value ++ rest)) ∨ kept.length < (front ++ value).length := by
  by_cases hlength : (front ++ value).length ≤ kept.length
  · refine .inl ?_
    rw [← List.append_assoc] at h
    obtain ⟨rest, hrest⟩ := List.prefix_of_prefix_length_le ⟨back, h.symm⟩
      (List.prefix_append kept marker) hlength
    exact ⟨rest, by rw [← hrest, List.append_assoc]⟩
  · exact .inr (by omega)

/-- What is found in a word shown stands in the word before its mark, or ends in its marker. -/
theorem found_in_shown {named : Bool} {word : Word} {front value back : List Char}
    (heq : shown named word = front ++ (value ++ back)) :
    (∃ rest, word = front ++ (value ++ rest) ∧
      ∀ kept ∈ markAt named word, (front ++ value).length ≤ kept) ∨
    ∃ kept ∈ markAt named word, word.take kept ++ marker = front ++ (value ++ back) ∧
      (word.take kept).length < (front ++ value).length := by
  cases hmark : markAt named word with
  | none =>
      rw [shown_of_none hmark] at heq
      exact .inl ⟨back, heq, nofun⟩
  | some kept =>
      rw [shown_of_some hmark] at heq
      rcases found_in_marked heq with ⟨rest, hrest⟩ | hlength
      · refine .inl ⟨rest ++ word.drop kept, ?_, fun other hother => ?_⟩
        · rw [← List.append_assoc value, ← List.append_assoc front, ← hrest,
            List.take_append_drop]
        · have hlength := congrArg List.length hrest
          rw [List.length_take, List.length_append, List.length_append] at hlength
          have hother := Option.mem_some.mp hother
          rw [List.length_append]
          omega
      · exact .inr ⟨kept, rfl, heq, hlength⟩

theorem shown_of_kept {named : Bool} {front value back : List Char}
    (h : ∀ kept ∈ markAt named (front ++ (value ++ back)), (front ++ value).length ≤ kept) :
    ∃ rest, shown named (front ++ (value ++ back)) = front ++ (value ++ rest) := by
  unfold shown
  cases hmark : markAt named (front ++ (value ++ back)) with
  | none => exact ⟨back, rfl⟩
  | some kept =>
      refine ⟨back.take (kept - (front ++ value).length) ++ marker, ?_⟩
      show List.take kept _ ++ marker = _
      rw [← List.append_assoc, List.take_append, List.take_of_length_le (h kept hmark)]
      simp only [List.append_assoc]

theorem spaced_eq {listed : List Word} (h : listed ≠ []) :
    spaced listed = [' '].intercalate listed ++ [' '] := by
  rcases List.eq_nil_or_concat listed with rfl | ⟨first, word, rfl⟩
  · exact absurd rfl h
  · rw [List.concat_eq_append, intercalate_eq]
    simp [spaced, led]

theorem length_intercalate {named : Bool} {listed : List Word} (h : listed ≠ []) :
    ([' '].intercalate (redactWords named listed)).length + 1 = lengthShown named listed := by
  have hne : redactWords named listed ≠ [] := by
    obtain ⟨word, rest, rfl⟩ := List.exists_cons_of_ne_nil h
    rw [redactWords_cons]
    exact List.cons_ne_nil _ _
  have hlength := congrArg List.length (spaced_eq hne)
  rw [length_spaced, List.length_append] at hlength
  exact hlength.symm

theorem OnceAt.space_not_mem {before value after : List Char} (h : OnceAt before value after) :
    ' ' ∉ value := by
  intro hmem
  have hbreak := h.word.unbroken ' ' hmem
  revert hbreak
  decide

/-- Each word is a part. -/
theorem part_of_word {text : List Char} {first last : List Word} {word : Word}
    (hnone : beforeSlice BEGIN text = none) (h : words isWhitespace text = first ++ word :: last) :
    ∃ kept mark, Part text (lengthShown false first) kept mark ∧
      kept ++ mark = shown (namedAfter false first) word := by
  cases hmark : markAt (namedAfter false first) word with
  | none => exact ⟨word, [], .whole hnone h hmark, by rw [shown_of_none hmark, List.append_nil]⟩
  | some kept => exact ⟨word.take kept, marker, .marked hnone h hmark, (shown_of_some hmark).symm⟩

/-- A part comes where it says. -/
theorem Part.redact {text kept mark : List Char} {place : Nat} (h : Part text place kept mark) :
    ∃ front back, redact text = front ++ ((kept ++ mark) ++ back) ∧ front.length = place := by
  have hword : ∀ {first last : List Word} {word : Word} (_ : beforeSlice BEGIN text = none)
      (_ : words isWhitespace text = first ++ word :: last), ∃ front back,
        Diagnostic.redact text = front ++ (shown (namedAfter false first) word ++ back) ∧
          front.length = lengthShown false first := by
    intro first last word hnone hwords
    rw [redact_of_none hnone, hwords, redactWords_append, redactWords_cons, intercalate_eq]
    exact ⟨_, _, rfl, length_spaced false first⟩
  cases h with
  | block h =>
      rw [redact_of_some h]
      exact ⟨[], [], by simp, rfl⟩
  | marked hnone h hmark =>
      rw [← shown_of_some hmark]
      exact hword hnone h
  | whole hnone h hmark =>
      obtain ⟨front, back, heq, hlength⟩ := hword hnone h
      rw [shown_of_none hmark] at heq
      exact ⟨front, back, by rw [heq, List.append_nil], hlength⟩

theorem length_redact {text : List Char} : (redact text).length = lengthRedacted text := by
  unfold lengthRedacted
  cases hslice : beforeSlice BEGIN text with
  | some kept => rw [redact_of_some hslice]
  | none =>
      rw [redact_of_none hslice]
      by_cases hne : words isWhitespace text = []
      · rw [hne]
        rfl
      · have hlength := @length_intercalate false _ hne
        show _ = lengthShown false (words isWhitespace text) - 1
        omega

/-- A value that nothing reaches stands there in what is shown. -/
theorem OnceAt.shown_at {before value after : List Char} (h : OnceAt before value after)
    (hbared : Bared before value after) : ∃ front back,
      redact (before ++ (value ++ after)) = front ++ (value ++ back) ∧
        (front ++ value).length = endShown before value after := by
  unfold Bared at hbared
  unfold endShown
  cases hslice : beforeSlice BEGIN (before ++ (value ++ after)) with
  | some kept =>
      rw [hslice] at hbared
      dsimp only at hbared ⊢
      -- What is kept is a start of the text, and is long enough to hold the value.
      obtain ⟨rest, hrest⟩ := prefix_of_beforeSlice hslice
      have hstart : kept <+: (before ++ value) ++ after :=
        ⟨BEGIN ++ rest, by rw [← List.append_assoc, hrest, List.append_assoc]⟩
      obtain ⟨finish, hfinish⟩ := List.prefix_of_prefix_length_le
        (List.prefix_append (before ++ value) after) hstart hbared
      refine ⟨before, finish ++ marker, ?_, rfl⟩
      rw [redact_of_some hslice, ← hfinish]
      simp only [List.append_assoc]
  | none =>
      rw [hslice] at hbared
      dsimp only at hbared ⊢
      obtain ⟨rest, hrest⟩ := shown_of_kept hbared
      rw [redact_of_none hslice, Library.words_around_piece h.word, redactWords_append,
        redactWords_cons, hrest, intercalate_eq]
      refine ⟨spaced (redactWords false (words isWhitespace (frontOf isWhitespace before))) ++
        wordBefore isWhitespace before, rest ++ led _, by simp only [List.append_assoc]; rfl, ?_⟩
      rw [List.append_assoc, List.length_append, length_spaced]

/-- The word a value is found in before its mark is the one it stands in. -/
theorem OnceAt.around {before value after : List Char} (h : OnceAt before value after)
    {first last : List Word} {word : Word} {start finish : List Char}
    (hwords : words isWhitespace (before ++ (value ++ after)) = first ++ word :: last)
    (hword : word = start ++ (value ++ finish)) :
    first = words isWhitespace (frontOf isWhitespace before) ∧
      start = wordBefore isWhitespace before ∧
        word = wordBefore isWhitespace before ++ (value ++ wordAfter isWhitespace after) := by
  -- The word holds the value, so it stands where the value stands, and that is one place.
  obtain ⟨head, tail, htext, hhead, hisWord, -, hfirst, -⟩ := Library.exists_around hwords
  have hplace : head ++ start = before := by
    refine h.once (head ++ start) (finish ++ tail) ?_
    rw [htext, hword]
    simp only [List.append_assoc]
  have hstart : ∀ c ∈ start, isWhitespace c = false := fun c hc =>
    hisWord.unbroken c (by rw [hword]; exact List.mem_append_left _ hc)
  have hcut : head ++ start = frontOf isWhitespace before ++ wordBefore isWhitespace before := by
    rw [hplace, Library.frontOf_append_wordBefore]
  obtain ⟨rfl, rfl⟩ := Library.cut_unique hhead (Library.endsAtBreak_frontOf before) hstart
    (Library.unbroken_wordBefore before) hcut
  have hsame := hwords.symm.trans (Library.words_around_piece h.word before after)
  rw [← hfirst] at hsame
  exact ⟨hfirst.symm, rfl, (List.cons.inj (List.append_cancel_left hsame)).1⟩

/-- A value is found in what is shown, before it is cut, at its own place or in a marker. -/
theorem OnceAt.found_iff {before value after : List Char} (h : OnceAt before value after)
    (finish : Nat) :
    (∃ front back, redact (before ++ (value ++ after)) = front ++ (value ++ back) ∧
      (front ++ value).length = finish) ↔
      (Bared before value after ∧ endShown before value after = finish) ∨
        EchoedAt (before ++ (value ++ after)) value finish := by
  constructor
  · rintro ⟨front, back, heq, hfinish⟩
    unfold Bared endShown
    cases hslice : beforeSlice BEGIN (before ++ (value ++ after)) with
    | some kept =>
        rw [redact_of_some hslice] at heq
        rcases found_in_marked heq with ⟨rest, hkept⟩ | hlength
        · refine .inl ?_
          obtain ⟨more, hmore⟩ := prefix_of_beforeSlice hslice
          have hfront : front = before := by
            refine h.once front (rest ++ (BEGIN ++ more)) ?_
            rw [← hmore, hkept]
            simp only [List.append_assoc]
          dsimp only
          rw [← hfront, hkept]
          refine ⟨?_, hfinish⟩
          simp only [List.length_append]
          omega
        · exact .inr ⟨0, kept, .block hslice, front, back, heq, hlength, by omega⟩
    -- Between two spaces of what is shown stands a word shown, so the value is in one of these.
    | none =>
        rw [redact_of_none hslice] at heq
        obtain ⟨first, start, rest, last, hlisted, hfront⟩ :=
          exists_of_intercalate h.word.nonempty h.space_not_mem heq
        obtain ⟨earlier, word, later, hwords, hearlier, hshown⟩ := exists_of_redactWords hlisted
        have hplace : (front ++ value).length =
            lengthShown false earlier + (start ++ value).length := by
          rw [hfront, ← hearlier, List.append_assoc, List.length_append, length_spaced]
        rcases found_in_shown hshown with ⟨more, hword, hkept⟩ | ⟨kept, hmark, hboth, hlength⟩
        · refine .inl ?_
          obtain ⟨hfirst, hstart, hsource⟩ := h.around hwords hword
          dsimp only
          rw [← hsource, ← hfirst, ← hstart]
          exact ⟨hkept, by omega⟩
        · exact .inr ⟨_, _, .marked hslice hwords hmark, start, rest, hboth, hlength, by omega⟩
  · rintro (⟨hbared, rfl⟩ | ⟨place, kept, hpart, start, rest, hboth, -, hfinish⟩)
    · exact h.shown_at hbared
    · obtain ⟨front, back, hredact, hlength⟩ := hpart.redact
      refine ⟨front ++ start, rest ++ back, ?_, ?_⟩
      · rw [hredact, hboth]
        simp only [List.append_assoc]
      · rw [List.append_assoc, List.length_append, hlength, hfinish]

/-- What is shown of a text ends at the cut as the part that is cut does. -/
theorem suffix_cut_iff {text head : List Char} (hspace : ' ' ∉ head)
    (hlong : MAX < lengthRedacted text) :
    head <:+ (redact text).take MAX ↔ ∃ place kept mark, Part text place kept mark ∧
      place ≤ MAX ∧ MAX ≤ place + (kept ++ mark).length ∧
        head <:+ (kept ++ mark).take (MAX - place) := by
  constructor
  · intro hhead
    cases hslice : beforeSlice BEGIN text with
    | some kept =>
        rw [← length_redact, redact_of_some hslice] at hlong
        rw [redact_of_some hslice] at hhead
        exact ⟨0, kept, marker, .block hslice, Nat.zero_le _, by omega, hhead⟩
    | none =>
        rw [← length_redact, redact_of_none hslice] at hlong
        -- The cut falls in one word shown, and a value without spaces ends in that word.
        obtain ⟨first, word, last, k, hlisted, hk, hle, -⟩ := exists_cut hlong
        obtain ⟨earlier, source, later, hwords, hearlier, hshown⟩ := exists_of_redactWords hlisted
        obtain ⟨kept, mark, hpart, hboth⟩ := part_of_word hslice hwords
        rw [hshown] at hboth
        rw [← hearlier, length_spaced] at hk
        refine ⟨_, kept, mark, hpart, by omega, by rw [hboth]; omega, ?_⟩
        rw [redact_of_none hslice, hlisted, intercalate_eq, ← hearlier,
          take_in_piece (by rw [length_spaced]; omega) (by rw [length_spaced]; omega),
          length_spaced] at hhead
        rw [hboth]
        exact suffix_of_spaced hspace hhead
  · rintro ⟨place, kept, mark, hpart, hplace, hreach, hhead⟩
    obtain ⟨front, back, hredact, rfl⟩ := hpart.redact
    rw [hredact, take_in_piece hplace hreach]
    exact hhead.trans (List.suffix_append _ _)

/-- What is shown of a text holds a value where nothing is taken out for it and the cut comes after
it, or where it is read off a marker or the ellipsis. -/
theorem infix_sanitised_iff {before value after : List Char} (h : OnceAt before value after) :
    value <:+: sanitised (before ++ (value ++ after)) ↔
      (Bared before value after ∧ Reached before value after) ∨
        Echoed (before ++ (value ++ after)) value ∨
          Trailed (before ++ (value ++ after)) value := by
  unfold sanitised
  rw [infix_cap_iff h.word.nonempty, length_redact, ← or_assoc]
  refine or_congr ?_ (and_congr_right fun hlong => ?_)
  · -- A place in what is shown is told by where the value ends there.
    have hfound := h.found_iff
    constructor
    · rintro ⟨front, back, heq, huncut⟩
      rcases (hfound _).mp ⟨front, back, heq, rfl⟩ with ⟨hbared, hfinish⟩ | hechoed
      · refine .inl ⟨hbared, ?_⟩
        unfold Reached
        rw [hfinish]
        exact huncut
      · exact .inr ⟨_, hechoed, huncut⟩
    · rintro (⟨hbared, hreached⟩ | ⟨finish, hechoed, huncut⟩)
      · obtain ⟨front, back, heq, hfinish⟩ := (hfound _).mpr (.inl ⟨hbared, rfl⟩)
        exact ⟨front, back, heq, by rw [hfinish]; exact hreached⟩
      · obtain ⟨front, back, heq, hfinish⟩ := (hfound _).mpr (.inr hechoed)
        exact ⟨front, back, heq, by rw [hfinish]; exact huncut⟩
  · refine exists_congr fun head => and_congr_right fun hhead => ?_
    refine suffix_cut_iff (fun hmem => h.space_not_mem ?_) hlong
    rw [hhead]
    exact List.mem_append_left _ hmem

/-- A value whose last character is none of the marker's is read off no marker. -/
theorem not_echoed {text value : List Char} {c : Char} (hlast : value.getLast? = some c)
    (hc : c ∉ marker) : ¬ Echoed text value := by
  rintro ⟨finish, ⟨place, kept, -, front, back, heq, hlength, -⟩, -⟩
  rw [← List.append_assoc] at heq
  obtain ⟨more, hmore⟩ := List.prefix_of_prefix_length_le (List.prefix_append kept marker)
    ⟨back, heq.symm⟩ (Nat.le_of_lt hlength)
  have hnil : more ≠ [] := by
    rintro rfl
    rw [← hmore, List.append_nil] at hlength
    omega
  rw [← hmore, List.append_assoc, List.append_cancel_left_eq] at heq
  -- What goes beyond the kept characters starts the marker and ends as the value does.
  have hends := congrArg List.getLast? hmore
  rw [List.getLast?_append_of_ne_nil _ hnil, List.getLast?_append, hlast, Option.some_or] at hends
  refine hc ?_
  rw [heq]
  exact List.mem_append_left _ (List.mem_of_getLast? hends)

/-- A value that does not end in an ellipsis is not read off one. -/
theorem not_trailed {text value : List Char} (h : value.getLast? ≠ some '…') :
    ¬ Trailed text value := by
  rintro ⟨-, head, rfl, -⟩
  rw [List.getLast?_concat] at h
  exact h rfl

end Diagnostic
end Platform
end SaasFabric
