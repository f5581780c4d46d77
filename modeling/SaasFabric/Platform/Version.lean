import SaasFabric.Core.Identifier
import SaasFabric.Core.Text
import SaasFabric.Library.SemVer

/-!
# Versions

`fabric-platform-management`'s `version.rs`, `version/parse.rs` and `version/ordering.rs`: which
texts are versions, for an image tag and for a chart, and how versions are ordered.
-/

namespace SaasFabric
namespace Platform

open Library

/-- `Version`. -/
structure Version where
  text : String
  core : U64 × U64 × U64
  pre : List String
  build : Option String
deriving DecidableEq

/-- `Version::as_str`. -/
def Version.asStr (version : Version) : String := version.text

/-! ## Reading -/

/-- `is_canonical_digits`. -/
def isCanonicalDigits (text : String) : Bool :=
  !text.isEmpty && text.toList.all Char.isDigit &&
    (text.utf8ByteSize == 1 || !Text.startsWith text "0")

/-- `numeric`. -/
def numeric (text : String) : Option U64 :=
  if !isCanonicalDigits text then none else Text.parseUnsigned (2 ^ 64) text

/-- `is_identifier_shape`. -/
def isIdentifierShape (part : String) : Bool :=
  !part.isEmpty && part.toList.all fun c => isAsciiAlphanumeric c || c == '-'

/-- `legal_prerelease_identifier`. -/
def legalPrereleaseIdentifier (part : String) : Bool :=
  if !isIdentifierShape part then false
  else if part.toList.all Char.isDigit then isCanonicalDigits part
  else true

/-- `legal_build_identifier`. -/
def legalBuildIdentifier (part : String) : Bool := isIdentifierShape part

/-- The build part, and what is before it. -/
def parseBuild (text : String) : Option (String × Option String) :=
  match Text.splitOnce '+' text with
  | some (rest, build) =>
      if (Text.split '.' build).any fun part => !legalBuildIdentifier part then none
      else some (rest, some build)
  | none => some (text, none)

/-- The core: three numbers, and nothing more. -/
def parseCore (text : String) : Option (U64 × U64 × U64) :=
  match Text.split '.' text with
  | [major, minor, patch] => do
      let major ← numeric major
      let minor ← numeric minor
      let patch ← numeric patch
      some (major, minor, patch)
  | _ => none

/-- The text of the core, and of the prerelease where there is one. -/
def splitPre (text : String) : String × Option String :=
  match Text.splitOnce '-' text with
  | some (core, pre) => (core, some pre)
  | none => (text, none)

/-- The identifiers of a prerelease. -/
def parsePre : Option String → Option (List String)
  | none => some []
  | some pre =>
      let parts := Text.split '.' pre
      if parts.any fun part => !legalPrereleaseIdentifier part then none else some parts

namespace Version

/-- `Version::parse_chart`. -/
def parseChart (text : String) : Option Version := do
  let (text, build) ← parseBuild text
  let (coreText, preText) := splitPre text
  let core ← parseCore coreText
  let pre ← parsePre preText
  some
    { text := match build with
        | some build => text ++ "+" ++ build
        | none => text
      core, pre, build }

/-- `Version::parse`. -/
def parse (text : String) : Option Version := do
  let parsed ← parseChart text
  if parsed.build.isNone then some parsed else none

end Version

/-! ## Ordering -/

/-- How an identifier compares: its kind, how many digits it has where it is numeric, its text. -/
structure PrecedencePart where
  kind : Nat
  digits : Nat
  text : String
deriving DecidableEq

/-- `Precedence`. -/
structure Precedence where
  core : U64 × U64 × U64
  released : Nat
  parts : List PrecedencePart
deriving DecidableEq

/-- Fields one after another, as the standard library compares tuples, and texts character by
character. -/
instance : Ord PrecedencePart where
  compare := compareLex (compareOn PrecedencePart.kind)
    (compareLex (compareOn PrecedencePart.digits) (compareOn fun part => part.text.toList))

/-- Likewise; lists item by item, and where one starts the other the longer is greater. -/
instance : Ord Precedence where
  compare := compareLex (compareOn fun key => key.core.1)
    (compareLex (compareOn fun key => key.core.2.1)
      (compareLex (compareOn fun key => key.core.2.2)
        (compareLex (compareOn Precedence.released) (compareOn Precedence.parts))))

/-- How one identifier compares. -/
def precedencePart (part : String) : PrecedencePart :=
  if part.toList.all Char.isDigit then ⟨0, part.utf8ByteSize, part⟩ else ⟨1, 0, part⟩

namespace Version

/-- `Version::key`. -/
def key (version : Version) : Precedence :=
  if version.pre.isEmpty then ⟨version.core, 1, []⟩
  else ⟨version.core, 0, version.pre.map precedencePart⟩

/-- `Ord::cmp`. -/
instance : Ord Version where
  compare := compareOn key

/-- `PartialEq::eq`. -/
def eq (first second : Version) : Bool := first.key == second.key

end Version

/-! ## What is read of identifiers -/

/-- Digits are as many bytes as they are characters. -/
theorem utf8ByteSize_of_digits {text : String} (h : ∀ c ∈ text.toList, c.isDigit = true) :
    text.utf8ByteSize = text.toList.length := by
  apply Text.utf8ByteSize_of_ascii
  intro c hc
  have hdigit := (Char.isDigit_iff_toNat.mp (h c hc)).2
  have hnine : ('9' : Char).toNat = 57 := rfl
  omega

theorem isCanonicalDigits_eq (text : String) :
    isCanonicalDigits text = SemVer.isNumeric text.toList := by
  have hempty : text.isEmpty = text.toList.isEmpty := by
    rw [Bool.eq_iff_iff, String.isEmpty_iff, List.isEmpty_iff, String.toList_eq_nil_iff]
  have hstart : Text.startsWith text "0" = ['0'].isPrefixOf text.toList := rfl
  unfold isCanonicalDigits
  rw [hempty, hstart]
  by_cases hdigits : text.toList.all Char.isDigit = true
  · rw [utf8ByteSize_of_digits (List.all_eq_true.mp hdigits)]
    generalize text.toList = characters at hdigits ⊢
    rcases characters with _ | ⟨first, _ | ⟨second, rest⟩⟩
    · rfl
    · by_cases hzero : first = '0'
      · subst hzero
        rfl
      · unfold SemVer.isNumeric
        simp_all
    · unfold SemVer.isNumeric
      simp only [List.all_cons, Bool.and_eq_true] at hdigits
      obtain ⟨hfirst, hsecond, hrest⟩ := hdigits
      by_cases hzero : first = '0'
      · simp [hzero, hsecond, hrest]
      · have hstarts : ['0'].isPrefixOf (first :: second :: rest) = false := by
          simp [List.isPrefixOf, Ne.symm hzero]
        rw [hstarts]
        simp [hzero, hfirst, hsecond, hrest]
  · rw [Bool.not_eq_true] at hdigits
    have hnumeric : SemVer.isNumeric text.toList = false := by
      rw [Bool.eq_false_iff]
      intro hnumeric
      have hall := List.all_eq_true.mpr (SemVer.isDigit_of_isNumeric hnumeric)
      rw [hdigits] at hall
      cases hall
    rw [hdigits, hnumeric, Bool.and_false, Bool.false_and]

/-- The shape is shared by what has a character that is no digit, and by digits. -/
theorem isIdentifierShape_eq (part : String) : isIdentifierShape part =
    (SemVer.isAlphanumeric part.toList || SemVer.isDigits part.toList) := by
  have hempty : part.isEmpty = part.toList.isEmpty := by
    rw [Bool.eq_iff_iff, String.isEmpty_iff, List.isEmpty_iff, String.toList_eq_nil_iff]
  have hdigit : ∀ c : Char, c.isDigit = true → SemVer.isIdentifierCharacter c = true := by
    intro c hc
    simp [SemVer.isIdentifierCharacter, Char.isAlphanum, hc]
  unfold isIdentifierShape SemVer.isAlphanumeric SemVer.isDigits
  rw [hempty]
  show (!part.toList.isEmpty && part.toList.all SemVer.isIdentifierCharacter) = _
  generalize part.toList = characters
  by_cases hall : characters.all Char.isDigit = true
  · have hshape : characters.all SemVer.isIdentifierCharacter = true :=
      List.all_eq_true.mpr fun c hc => hdigit c (List.all_eq_true.mp hall c hc)
    have hany : (characters.any fun c => !c.isDigit) = false := by
      simpa using hall
    rw [hall, hshape, hany, Bool.and_true, Bool.and_false, Bool.false_or]
  · have hany : (characters.any fun c => !c.isDigit) = true := by
      simpa using hall
    have hnil : characters.isEmpty = false := by
      rw [Bool.eq_false_iff]
      intro hnil
      rw [List.isEmpty_iff.mp hnil] at hany
      cases hany
    rw [Bool.not_eq_true] at hall
    rw [hall, hany, hnil, Bool.and_true, Bool.and_false, Bool.or_false, Bool.not_false,
      Bool.true_and]

theorem legalBuildIdentifier_eq (part : String) :
    legalBuildIdentifier part = SemVer.isBuild part.toList :=
  isIdentifierShape_eq part

theorem legalPrereleaseIdentifier_eq (part : String) :
    legalPrereleaseIdentifier part = SemVer.isPrerelease part.toList := by
  unfold legalPrereleaseIdentifier SemVer.isPrerelease
  rw [isIdentifierShape_eq, isCanonicalDigits_eq]
  by_cases hall : part.toList.all Char.isDigit = true
  · have hany : SemVer.isAlphanumeric part.toList = false := by
      unfold SemVer.isAlphanumeric
      rw [Bool.and_eq_false_iff]
      exact Or.inr (by simpa using hall)
    rw [hany, Bool.false_or, Bool.false_or, if_pos hall]
    cases hnumeric : SemVer.isNumeric part.toList with
    | false => split <;> rfl
    | true =>
        have hdigits : SemVer.isDigits part.toList = true := by
          unfold SemVer.isDigits
          rw [hall, Bool.and_true, Bool.not_eq_true', List.isEmpty_eq_false_iff]
          exact SemVer.ne_nil_of_isNumeric hnumeric
        rw [hdigits]
        rfl
  · have hdigits : SemVer.isDigits part.toList = false := by
      unfold SemVer.isDigits
      rw [Bool.not_eq_true] at hall
      rw [hall, Bool.and_false]
    have hnumeric : SemVer.isNumeric part.toList = false := by
      rw [Bool.eq_false_iff]
      exact fun hnumeric => hall (List.all_eq_true.mpr
        (SemVer.isDigit_of_isNumeric hnumeric))
    rw [hdigits, hnumeric, Bool.or_false, if_neg hall]
    cases SemVer.isAlphanumeric part.toList <;> rfl

/-- Digits are read as the number they stand for, on top of what was read before them. -/
theorem parseDigits_of_digits {digits : List Char} (h : ∀ c ∈ digits, c.isDigit = true)
    (before : Nat) : Text.parseDigits before digits =
      some (before * 10 ^ digits.length + SemVer.value digits) := by
  induction digits generalizing before with
  | nil => simp [Text.parseDigits, SemVer.value]
  | cons first rest ih =>
      rw [List.forall_mem_cons] at h
      rw [Text.parseDigits, if_pos h.1, ih h.2, SemVer.value_cons, List.length_cons]
      refine congrArg some ?_
      show (10 * before + (first.toNat - 48)) * 10 ^ rest.length + _ = _
      rw [pow_succ]
      ring

theorem numeric_eq_some {text : String} {number : U64} : numeric text = some number ↔
    SemVer.isNumeric text.toList = true ∧ SemVer.value text.toList = number.val := by
  unfold numeric
  rw [isCanonicalDigits_eq]
  cases hnumeric : SemVer.isNumeric text.toList with
  | false => simp
  | true =>
      have hdigits := SemVer.isDigit_of_isNumeric hnumeric
      have hread := parseDigits_of_digits hdigits 0
      rw [Nat.zero_mul, Nat.zero_add] at hread
      rw [if_neg (by decide), Text.parseUnsigned_of_digits hdigits
        (SemVer.ne_nil_of_isNumeric hnumeric), hread, Option.bind_some]
      split
      · rw [Option.some.injEq, Fin.ext_iff]
        exact ⟨fun h => ⟨rfl, h⟩, fun h => h.2⟩
      · rename_i hlarge
        refine ⟨nofun, fun heq => absurd number.isLt ?_⟩
        rw [← heq.2]
        exact hlarge

/-! ## What is read of a version -/

section Suffixed

variable {introduced : Char} {text before after : String} {parts : List (List Char)}

/-- A text is what is before a suffix, and the suffix. -/
structure Suffixed (introduced : Char) (text before : String) (parts : List (List Char)) :
    Prop where
  text : text.toList = before.toList ++ SemVer.Version.suffix introduced parts
  before : introduced ∉ before.toList

/-- Nothing is introduced where nothing is split off. -/
theorem suffixed_of_none (h : Text.splitOnce introduced text = none) :
    Suffixed introduced text text [] :=
  ⟨by simp [SemVer.Version.suffix], Text.splitOnce_eq_none.mp h⟩

/-- What is split off is identifiers, joined. -/
theorem suffixed_of_some (h : Text.splitOnce introduced text = some (before, after)) :
    Suffixed introduced text before (after.toList.splitOn '.') := by
  obtain ⟨htext, hbefore⟩ := Text.splitOnce_eq_some.mp h
  refine ⟨?_, hbefore⟩
  unfold SemVer.Version.suffix
  rw [htext, if_neg (List.splitOn_ne_nil _ _), List.intercalate_splitOn]

theorem Suffixed.splitOnce_eq_none (h : Suffixed introduced text before []) :
    Text.splitOnce introduced text = none ∧ before = text := by
  have htext : text = before := String.toList_injective (by rw [h.text]; simp [SemVer.Version.suffix])
  refine ⟨Text.splitOnce_eq_none.mpr ?_, htext.symm⟩
  rw [htext]
  exact h.before

theorem Suffixed.splitOnce_eq_some (h : Suffixed introduced text before parts)
    (hparts : parts ≠ []) : Text.splitOnce introduced text =
      some (before, String.ofList (['.'].intercalate parts)) := by
  refine Text.splitOnce_eq_some.mpr ⟨?_, h.before⟩
  rw [h.text, SemVer.Version.suffix, if_neg hparts, String.toList_ofList]

/-- Identifiers without dots come apart again. -/
theorem split_intercalate (hparts : parts ≠ []) (hdots : ∀ part ∈ parts, '.' ∉ part) :
    Text.split '.' (String.ofList (['.'].intercalate parts)) = parts.map String.ofList := by
  unfold Text.split
  rw [String.toList_ofList, List.splitOn_intercalate _ hdots hparts]

/-- Identifiers without dots are told by how they are joined. -/
theorem eq_of_intercalate_eq {others : List (List Char)} (hparts : parts ≠ [])
    (hothers : others ≠ []) (hdots : ∀ part ∈ parts, '.' ∉ part)
    (hdotsToo : ∀ part ∈ others, '.' ∉ part)
    (h : ['.'].intercalate parts = ['.'].intercalate others) : parts = others := by
  rw [← List.splitOn_intercalate '.' hdots hparts, h,
    List.splitOn_intercalate '.' hdotsToo hothers]

/-- A text ends in one suffix. -/
theorem Suffixed.unique {other : String} {others : List (List Char)}
    (h : Suffixed introduced text before parts) (hother : Suffixed introduced text other others)
    (hdots : ∀ part ∈ parts, '.' ∉ part) (hdotsToo : ∀ part ∈ others, '.' ∉ part) :
    before = other ∧ parts = others := by
  by_cases hparts : parts = []
  · subst hparts
    obtain ⟨hnone, rfl⟩ := h.splitOnce_eq_none
    by_cases hothers : others = []
    · subst hothers
      exact ⟨hother.splitOnce_eq_none.2.symm, rfl⟩
    · cases hnone.symm.trans (hother.splitOnce_eq_some hothers)
  · have hsplit := h.splitOnce_eq_some hparts
    by_cases hothers : others = []
    · subst hothers
      cases hsplit.symm.trans hother.splitOnce_eq_none.1
    · obtain ⟨hbefore, hjoined⟩ := Prod.mk.inj (Option.some.inj
        (hsplit.symm.trans (hother.splitOnce_eq_some hothers)))
      have hlists := congrArg String.toList hjoined
      rw [String.toList_ofList, String.toList_ofList] at hlists
      exact ⟨hbefore, eq_of_intercalate_eq hparts hothers hdots hdotsToo hlists⟩

end Suffixed

/-- A text of identifiers, of none where there is none. -/
def joined (parts : List (List Char)) : Option String :=
  if parts = [] then none else some (String.ofList (['.'].intercalate parts))

theorem isBuild_dots {part : List Char} (h : SemVer.isBuild part = true) : '.' ∉ part := fun hdot =>
  absurd (SemVer.isIdentifierCharacter_of_isBuild h '.' hdot) (by decide)

theorem isPrerelease_dots {part : List Char} (h : SemVer.isPrerelease part = true) :
    '.' ∉ part := fun hdot =>
  absurd (SemVer.isIdentifierCharacter_of_isPrerelease h '.' hdot) (by decide)

theorem isNumeric_dots {first second third : List Char}
    (h : SemVer.isNumeric first = true ∧ SemVer.isNumeric second = true ∧
      SemVer.isNumeric third = true) : ∀ part ∈ [first, second, third], '.' ∉ part := by
  have hnumeric : ∀ part, SemVer.isNumeric part = true → '.' ∉ part := fun part h hdot =>
    absurd (SemVer.isDigit_of_isNumeric h '.' hdot) (by decide)
  intro part hpart
  simp only [List.mem_cons, List.not_mem_nil, or_false] at hpart
  rcases hpart with rfl | rfl | rfl
  · exact hnumeric _ h.1
  · exact hnumeric _ h.2.1
  · exact hnumeric _ h.2.2

/-- Nothing is illegal among the parts a text is split into. -/
theorem any_split_eq_false {illegal : String → Bool} {text : String} :
    ((Text.split '.' text).any illegal) = false ↔
      ∀ part ∈ text.toList.splitOn '.', illegal (String.ofList part) = false := by
  unfold Text.split
  rw [List.any_eq_false, List.forall_mem_map]
  simp only [Bool.not_eq_true]

theorem parseBuild_eq_some {text before : String} {build : Option String} :
    parseBuild text = some (before, build) ↔ ∃ parts, (∀ part ∈ parts, SemVer.isBuild part = true) ∧
      Suffixed '+' text before parts ∧ build = joined parts := by
  constructor
  · intro h
    unfold parseBuild at h
    split at h
    · rename_i rest after hsplit
      split at h
      · cases h
      · rename_i hlegal
        cases h
        refine ⟨_, ?_, suffixed_of_some hsplit, ?_⟩
        · rw [Bool.not_eq_true, any_split_eq_false] at hlegal
          intro part hpart
          have hpart := hlegal part hpart
          rw [legalBuildIdentifier_eq, String.toList_ofList] at hpart
          simpa using hpart
        · rw [joined, if_neg (List.splitOn_ne_nil _ _), List.intercalate_splitOn,
            String.ofList_toList]
    · rename_i hsplit
      cases h
      exact ⟨[], List.forall_mem_nil _, suffixed_of_none hsplit, rfl⟩
  · rintro ⟨parts, hlegal, hsuffixed, rfl⟩
    unfold parseBuild joined
    by_cases hparts : parts = []
    · subst hparts
      obtain ⟨hsplit, rfl⟩ := hsuffixed.splitOnce_eq_none
      rw [hsplit, if_pos rfl]
    · rw [hsuffixed.splitOnce_eq_some hparts, if_neg hparts]
      dsimp only
      rw [split_intercalate hparts fun part hpart => isBuild_dots (hlegal part hpart), if_neg]
      simp only [List.any_map, Bool.not_eq_true, List.any_eq_false, Function.comp_apply,
        legalBuildIdentifier_eq, String.toList_ofList]
      intro part hpart
      rw [hlegal part hpart]
      rfl

theorem parsePre_splitPre_eq_some {text : String} {pre : List String} :
    parsePre (splitPre text).2 = some pre ↔ ∃ parts,
      (∀ part ∈ parts, SemVer.isPrerelease part = true) ∧
        Suffixed '-' text (splitPre text).1 parts ∧ pre = parts.map String.ofList := by
  constructor
  · intro h
    unfold splitPre at h ⊢
    cases hsplit : Text.splitOnce '-' text with
    | none =>
        rw [hsplit] at h
        cases h
        exact ⟨[], List.forall_mem_nil _, suffixed_of_none hsplit, rfl⟩
    | some found =>
        obtain ⟨core, after⟩ := found
        rw [hsplit] at h
        unfold parsePre at h
        dsimp only at h
        split at h
        · cases h
        · rename_i hlegal
          cases h
          refine ⟨_, ?_, suffixed_of_some hsplit, rfl⟩
          rw [Bool.not_eq_true, any_split_eq_false] at hlegal
          intro part hpart
          have hpart := hlegal part hpart
          rw [legalPrereleaseIdentifier_eq, String.toList_ofList] at hpart
          simpa using hpart
  · rintro ⟨parts, hlegal, hsuffixed, rfl⟩
    by_cases hparts : parts = []
    · subst hparts
      have hsplit := hsuffixed.splitOnce_eq_none.1
      unfold splitPre
      rw [hsplit]
      rfl
    · have hsplit := hsuffixed.splitOnce_eq_some hparts
      unfold splitPre
      rw [hsplit]
      unfold parsePre
      dsimp only
      rw [split_intercalate hparts fun part hpart => isPrerelease_dots (hlegal part hpart),
        if_neg]
      simp only [List.any_map, Bool.not_eq_true, List.any_eq_false, Function.comp_apply,
        legalPrereleaseIdentifier_eq, String.toList_ofList]
      intro part hpart
      rw [hlegal part hpart]
      rfl

/-- The first half of a split stands before the suffix. -/
theorem splitPre_eq_of_suffixed {text core : String} {parts : List (List Char)}
    (h : Suffixed '-' text core parts) : (splitPre text).1 = core := by
  unfold splitPre
  by_cases hparts : parts = []
  · subst hparts
    obtain ⟨hsplit, rfl⟩ := h.splitOnce_eq_none
    rw [hsplit]
  · rw [h.splitOnce_eq_some hparts]

theorem parseCore_eq_some {text : String} {major minor patch : U64} :
    parseCore text = some (major, minor, patch) ↔ ∃ first second third,
      (SemVer.isNumeric first = true ∧ SemVer.isNumeric second = true ∧
        SemVer.isNumeric third = true) ∧
      text.toList = ['.'].intercalate [first, second, third] ∧
      SemVer.value first = major.val ∧ SemVer.value second = minor.val ∧
        SemVer.value third = patch.val := by
  constructor
  · intro h
    unfold parseCore at h
    split at h
    · rename_i first second third hsplit
      obtain ⟨major', hmajor, h⟩ := Option.bind_eq_some_iff.mp h
      obtain ⟨minor', hminor, h⟩ := Option.bind_eq_some_iff.mp h
      obtain ⟨patch', hpatch, h⟩ := Option.bind_eq_some_iff.mp h
      cases h
      have hfirst := numeric_eq_some.mp hmajor
      have hsecond := numeric_eq_some.mp hminor
      have hthird := numeric_eq_some.mp hpatch
      refine ⟨first.toList, second.toList, third.toList, ⟨hfirst.1, hsecond.1, hthird.1⟩, ?_,
        hfirst.2, hsecond.2, hthird.2⟩
      have hlists : text.toList.splitOn '.' = [first.toList, second.toList, third.toList] := by
        have hmap := congrArg (List.map String.toList) hsplit
        rwa [Text.split, List.map_map, List.map_id'' (by simp)] at hmap
      rw [← hlists, List.intercalate_splitOn]
    · cases h
  · rintro ⟨first, second, third, ⟨hfirst, hsecond, hthird⟩, htext, hmajor, hminor, hpatch⟩
    have hdots := isNumeric_dots ⟨hfirst, hsecond, hthird⟩
    have hsplit : Text.split '.' text =
        [String.ofList first, String.ofList second, String.ofList third] := by
      rw [Text.split, htext, List.splitOn_intercalate _ hdots (List.cons_ne_nil _ _)]
      rfl
    have hread : ∀ {part : List Char} {number : U64}, SemVer.isNumeric part = true →
        SemVer.value part = number.val → numeric (String.ofList part) = some number := by
      intro part number hnumeric hvalue
      rw [numeric_eq_some, String.toList_ofList]
      exact ⟨hnumeric, hvalue⟩
    unfold parseCore
    rw [hsplit]
    dsimp only
    rw [hread hfirst hmajor, hread hsecond hminor, hread hthird hpatch]
    rfl

/-! ## Parsing is exact -/

section Exact

variable {text : String}

/-- What is read of a semantic version whose numbers fit. -/
def Version.of (version : SemVer.Version) (h : version.Below (2 ^ 64)) : Version where
  text := String.ofList version.render
  core := (⟨SemVer.value version.major, h.major⟩, ⟨SemVer.value version.minor, h.minor⟩,
    ⟨SemVer.value version.patch, h.patch⟩)
  pre := version.pre.map String.ofList
  build := joined version.build

/-- The text is put together again as it was. -/
theorem text_of_suffixed {before : String} {parts : List (List Char)}
    (h : Suffixed '+' text before parts) : (match joined parts with
      | some build => before ++ "+" ++ build
      | none => before) = text := by
  by_cases hparts : parts = []
  · subst hparts
    exact h.splitOnce_eq_none.2
  · refine String.toList_injective ?_
    rw [h.text, joined, if_neg hparts, SemVer.Version.suffix, if_neg hparts]
    simp

/-- A version that is written is split where its parts end. -/
theorem suffixed_render {version : SemVer.Version} (h : version.render = text.toList) :
    Suffixed '+' text (String.ofList (version.core ++ SemVer.Version.suffix '-' version.pre))
      version.build ∧
    Suffixed '-' (String.ofList (version.core ++ SemVer.Version.suffix '-' version.pre))
      (String.ofList version.core) version.pre := by
  have hpre : ∀ part ∈ version.pre, ∀ c ∈ part, SemVer.isIdentifierCharacter c = true :=
    fun part hpart => SemVer.isIdentifierCharacter_of_isPrerelease (version.identifiers part hpart)
  refine ⟨⟨?_, ?_⟩, ⟨?_, ?_⟩⟩
  · rw [← h, String.toList_ofList]
    rfl
  · rw [String.toList_ofList, List.mem_append, not_or]
    exact ⟨SemVer.Version.not_mem_core (by decide) (by decide),
      SemVer.Version.not_mem_suffix hpre (by decide) (by decide) (by decide)⟩
  · rw [String.toList_ofList, String.toList_ofList]
  · rw [String.toList_ofList]
    exact SemVer.Version.not_mem_core (by decide) (by decide)

/-- A semantic version is told by how it is written. -/
theorem render_injective : Function.Injective SemVer.Version.render := by
  intro version against h
  have hrender : against.render = (String.ofList version.render).toList := by
    rw [String.toList_ofList, h]
  have hown : version.render = (String.ofList version.render).toList := by
    rw [String.toList_ofList]
  obtain ⟨hbuild, hpre⟩ := suffixed_render hown
  obtain ⟨hbuildToo, hpreToo⟩ := suffixed_render hrender
  obtain ⟨hbefore, hbuilds⟩ := hbuild.unique hbuildToo
    (fun part hpart => isBuild_dots (version.metadata part hpart))
    (fun part hpart => isBuild_dots (against.metadata part hpart))
  rw [hbefore] at hpre
  obtain ⟨hcore, hpres⟩ := hpre.unique hpreToo
    (fun part hpart => isPrerelease_dots (version.identifiers part hpart))
    (fun part hpart => isPrerelease_dots (against.identifiers part hpart))
  have hcores := congrArg String.toList hcore
  rw [String.toList_ofList, String.toList_ofList] at hcores
  have hnumbers := eq_of_intercalate_eq (List.cons_ne_nil _ _) (List.cons_ne_nil _ _)
    (isNumeric_dots version.numbers) (isNumeric_dots against.numbers) hcores
  simp only [List.cons.injEq, and_true] at hnumbers
  exact SemVer.Version.ext hnumbers.1 hnumbers.2.1 hnumbers.2.2 hpres hbuilds

/-- A text is read as a version exactly where it is one that is written so, and its numbers
fit. -/
theorem parseChart_eq_some {parsed : Version} : Version.parseChart text = some parsed ↔
    ∃ (version : SemVer.Version) (h : version.Below (2 ^ 64)),
      version.render = text.toList ∧ parsed = .of version h := by
  constructor
  · intro h
    unfold Version.parseChart at h
    obtain ⟨⟨before, build⟩, hbuild, h⟩ := Option.bind_eq_some_iff.mp h
    obtain ⟨⟨major, minor, patch⟩, hcore, h⟩ := Option.bind_eq_some_iff.mp h
    obtain ⟨pre, hpre, h⟩ := Option.bind_eq_some_iff.mp h
    have hcore : parseCore (splitPre before).1 = some (major, minor, patch) := hcore
    obtain ⟨parts, hlegal, hsuffixed, rfl⟩ := parseBuild_eq_some.mp hbuild
    obtain ⟨identifiers, hidentifiers, hpreSuffixed, rfl⟩ := parsePre_splitPre_eq_some.mp hpre
    obtain ⟨first, second, third, hnumbers, hcoreText, hmajor, hminor, hpatch⟩ :=
      parseCore_eq_some.mp hcore
    let version : SemVer.Version :=
      ⟨first, second, third, identifiers, parts, hnumbers, hidentifiers, hlegal⟩
    have hrender : version.render = text.toList := by
      rw [hsuffixed.text, hpreSuffixed.text, hcoreText]
      rfl
    have hbelow : version.Below (2 ^ 64) := by
      refine ⟨?_, ?_, ?_⟩
      · exact hmajor.trans_lt major.isLt
      · exact hminor.trans_lt minor.isLt
      · exact hpatch.trans_lt patch.isLt
    refine ⟨version, hbelow, hrender, ?_⟩
    rw [← Option.some.inj h, Version.of, Version.mk.injEq]
    refine ⟨?_, ?_, rfl, rfl⟩
    · rw [hrender, String.ofList_toList]
      exact text_of_suffixed hsuffixed
    · exact Prod.ext (Fin.ext hmajor.symm) (Prod.ext (Fin.ext hminor.symm) (Fin.ext hpatch.symm))
  · rintro ⟨version, hbelow, hrender, rfl⟩
    obtain ⟨hsuffixed, hpreSuffixed⟩ := suffixed_render hrender
    have hcoreText := splitPre_eq_of_suffixed hpreSuffixed
    have hbuild := parseBuild_eq_some.mpr ⟨version.build, version.metadata, hsuffixed, rfl⟩
    have hpre := parsePre_splitPre_eq_some.mpr ⟨version.pre, version.identifiers,
      hcoreText.symm ▸ hpreSuffixed, rfl⟩
    have hcore : parseCore (splitPre (String.ofList (version.core ++
        SemVer.Version.suffix '-' version.pre))).1 = some (Version.of version hbelow).core := by
      rw [hcoreText]
      exact parseCore_eq_some.mpr ⟨version.major, version.minor, version.patch, version.numbers,
        by rw [String.toList_ofList]; rfl, rfl, rfl, rfl⟩
    unfold Version.parseChart
    refine Option.bind_eq_some_iff.mpr ⟨_, hbuild, Option.bind_eq_some_iff.mpr ⟨_, hcore,
      Option.bind_eq_some_iff.mpr ⟨_, hpre, congrArg some ?_⟩⟩⟩
    rw [Version.of, Version.mk.injEq]
    refine ⟨?_, rfl, rfl, rfl⟩
    rw [hrender, String.ofList_toList]
    exact text_of_suffixed hsuffixed

/-- For an image tag, without a build part. -/
theorem parse_eq_some {parsed : Version} : Version.parse text = some parsed ↔
    ∃ (version : SemVer.Version) (h : version.Below (2 ^ 64)),
      version.render = text.toList ∧ version.build = [] ∧ parsed = .of version h := by
  have hjoined : ∀ parts, (joined parts).isNone = true ↔ parts = [] := by
    intro parts
    unfold joined
    split <;> simp_all
  show ((Version.parseChart text).bind fun read =>
    if read.build.isNone then some read else none) = some parsed ↔ _
  rw [Option.bind_eq_some_iff]
  constructor
  · rintro ⟨read, hread, h⟩
    obtain ⟨version, hbelow, hrender, rfl⟩ := parseChart_eq_some.mp hread
    split at h
    · rename_i hnone
      exact ⟨version, hbelow, hrender, (hjoined _).mp hnone, (Option.some.inj h).symm⟩
    · cases h
  · rintro ⟨version, hbelow, hrender, hbuild, rfl⟩
    exact ⟨_, parseChart_eq_some.mpr ⟨version, hbelow, hrender, rfl⟩,
      if_pos ((hjoined _).mpr hbuild)⟩

end Exact

/-! ## The order is precedence -/

section Order

instance : Std.TransOrd PrecedencePart :=
  inferInstanceAs (Std.TransCmp (compareLex (compareOn PrecedencePart.kind)
    (compareLex (compareOn PrecedencePart.digits) (compareOn fun part => part.text.toList))))

instance : Std.LawfulEqOrd PrecedencePart where
  eq_of_compare := by
    intro first second h
    obtain ⟨hkind, h⟩ := compareLex_eq_eq.mp h
    obtain ⟨hdigits, htext⟩ := compareLex_eq_eq.mp h
    obtain ⟨_, _, _⟩ := first
    obtain ⟨_, _, _⟩ := second
    rw [PrecedencePart.mk.injEq]
    exact ⟨Std.LawfulEqOrd.eq_of_compare hkind, Std.LawfulEqOrd.eq_of_compare hdigits,
      String.toList_injective (Std.LawfulEqOrd.eq_of_compare htext)⟩

instance : Std.TransOrd Precedence :=
  inferInstanceAs (Std.TransCmp (compareLex (compareOn fun key : Precedence => key.core.1)
    (compareLex (compareOn fun key => key.core.2.1)
      (compareLex (compareOn fun key => key.core.2.2)
        (compareLex (compareOn Precedence.released) (compareOn Precedence.parts))))))

instance : Std.LawfulEqOrd Precedence where
  eq_of_compare := by
    intro first second h
    obtain ⟨hmajor, h⟩ := compareLex_eq_eq.mp h
    obtain ⟨hminor, h⟩ := compareLex_eq_eq.mp h
    obtain ⟨hpatch, h⟩ := compareLex_eq_eq.mp h
    obtain ⟨hreleased, hparts⟩ := compareLex_eq_eq.mp h
    obtain ⟨⟨_, _, _⟩, _, _⟩ := first
    obtain ⟨⟨_, _, _⟩, _, _⟩ := second
    rw [Precedence.mk.injEq]
    exact ⟨Prod.ext (Std.LawfulEqOrd.eq_of_compare hmajor)
      (Prod.ext (Std.LawfulEqOrd.eq_of_compare hminor) (Std.LawfulEqOrd.eq_of_compare hpatch)),
      Std.LawfulEqOrd.eq_of_compare hreleased, Std.LawfulEqOrd.eq_of_compare hparts⟩

instance : Std.TransOrd Version := inferInstanceAs (Std.TransCmp (compareOn Version.key))

theorem Version.eq_iff {first second : Version} :
    first.eq second = true ↔ compare first second = .eq := by
  unfold Version.eq
  rw [beq_iff_eq]
  exact Std.LawfulEqOrd.compare_eq_iff_eq.symm

/-- Identifiers are compared as their precedence is. -/
theorem compare_precedencePart {first second : List Char}
    (hfirst : SemVer.isPrerelease first = true) (hsecond : SemVer.isPrerelease second = true) :
    compare (precedencePart (String.ofList first)) (precedencePart (String.ofList second)) =
      SemVer.compareIdentifiers first second := by
  have hkey : ∀ part, SemVer.isPrerelease part = true → precedencePart (String.ofList part) =
      if SemVer.isNumeric part then ⟨0, part.length, String.ofList part⟩
      else ⟨1, 0, String.ofList part⟩ := by
    intro part hpart
    unfold precedencePart
    rw [String.toList_ofList, SemVer.all_isDigit_of_isPrerelease hpart]
    by_cases hnumeric : SemVer.isNumeric part = true
    · rw [if_pos hnumeric, if_pos hnumeric, utf8ByteSize_of_digits, String.toList_ofList]
      rw [String.toList_ofList]
      exact SemVer.isDigit_of_isNumeric hnumeric
    · rw [if_neg hnumeric, if_neg hnumeric]
  have hcompare : ∀ first second : PrecedencePart, compare first second =
      (compare first.kind second.kind).then ((compare first.digits second.digits).then
        (compare first.text.toList second.text.toList)) := fun _ _ => rfl
  rw [hkey first hfirst, hkey second hsecond, hcompare, SemVer.compareIdentifiers]
  cases hfirst : SemVer.isNumeric first <;> cases hsecond : SemVer.isNumeric second
  · simp [String.toList_ofList]
  · rfl
  · rfl
  · rw [SemVer.compare_value hfirst hsecond]
    simp [String.toList_ofList]

theorem compare_precedenceParts {first second : List (List Char)}
    (hfirst : ∀ part ∈ first, SemVer.isPrerelease part = true)
    (hsecond : ∀ part ∈ second, SemVer.isPrerelease part = true) :
    compare ((first.map String.ofList).map precedencePart)
        ((second.map String.ofList).map precedencePart) =
      List.compareLex SemVer.compareIdentifiers first second := by
  induction first generalizing second with
  | nil => cases second <;> rfl
  | cons part rest ih =>
      cases second with
      | nil => rfl
      | cons other others =>
          rw [List.forall_mem_cons] at hfirst hsecond
          simp only [List.map_cons]
          rw [List.compare_cons_cons, List.compareLex_cons_cons, ih hfirst.2 hsecond.2,
            compare_precedencePart hfirst.1 hsecond.1]

/-- What is read of two versions is compared as their precedence is. -/
theorem compare_of {first second : SemVer.Version} (hfirst : first.Below (2 ^ 64))
    (hsecond : second.Below (2 ^ 64)) :
    compare (Version.of first hfirst) (.of second hsecond) = SemVer.precedence first second := by
  have hcompare : ∀ first second : Precedence, compare first second =
      (compare first.core.1 second.core.1).then ((compare first.core.2.1 second.core.2.1).then
        ((compare first.core.2.2 second.core.2.2).then
          ((compare first.released second.released).then
            (compare first.parts second.parts)))) := fun _ _ => rfl
  have hprereleases : (compare (Version.of first hfirst).key.released
      (Version.of second hsecond).key.released).then (compare (Version.of first hfirst).key.parts
        (Version.of second hsecond).key.parts) =
      SemVer.comparePrereleases first.pre second.pre := by
    have hparts := compare_precedenceParts first.identifiers second.identifiers
    unfold Version.key Version.of
    cases hpre : first.pre with
    | nil =>
        cases second.pre <;> rfl
    | cons part rest =>
        cases hother : second.pre with
        | nil => rfl
        | cons other others =>
            rw [hpre, hother] at hparts
            exact hparts
  have hcore : ∀ version h, (Version.of version h).key.core = (Version.of version h).core := by
    intro version h
    unfold Version.key
    split <;> rfl
  show compare (Version.of first hfirst).key (Version.of second hsecond).key = _
  rw [hcompare, hprereleases, hcore, hcore]
  rfl

end Order

/-- A text is a version exactly where it is a semantic version whose numbers fit, and is kept as
it is; versions are in one total order, which is their precedence; and those that have the same
differ at most in their build part. -/
theorem versions_are_semantic :
    (∀ text, (Version.parseChart text).isSome ↔ ∃ version : SemVer.Version,
      version.Below (2 ^ 64) ∧ version.render = text.toList) ∧
    (∀ text, (Version.parse text).isSome ↔ ∃ version : SemVer.Version,
      version.Below (2 ^ 64) ∧ version.render = text.toList ∧ version.build = []) ∧
    (∀ text parsed, Version.parse text = some parsed → Version.parseChart text = some parsed) ∧
    (∀ text parsed, Version.parseChart text = some parsed → parsed.asStr = text) ∧
    Std.TransOrd Version ∧
    (∀ first second : Version, first.eq second = true ↔ compare first second = .eq) ∧
    (∀ (first second : String) parsed other (version against : SemVer.Version),
      Version.parseChart first = some parsed → Version.parseChart second = some other →
      version.render = first.toList → against.render = second.toList →
        compare parsed other = SemVer.precedence version against ∧
          (compare parsed other = .eq ↔ version.released = against.released)) ∧
    (∀ first second parsed other, Version.parse first = some parsed →
      Version.parse second = some other → compare parsed other = .eq → first = second) := by
  have hchart : ∀ text parsed, Version.parse text = some parsed →
      Version.parseChart text = some parsed := by
    intro text parsed h
    obtain ⟨version, hbelow, hrender, -, rfl⟩ := parse_eq_some.mp h
    exact parseChart_eq_some.mpr ⟨version, hbelow, hrender, rfl⟩
  -- What is read of a text is what is read of the version that is written so.
  have hread : ∀ {text parsed} {version : SemVer.Version},
      Version.parseChart text = some parsed → version.render = text.toList →
        ∃ hbelow, parsed = .of version hbelow := by
    intro text parsed version h hrender
    obtain ⟨written, hbelow, hwritten, rfl⟩ := parseChart_eq_some.mp h
    have hsame : written = version := render_injective (hwritten.trans hrender.symm)
    subst hsame
    exact ⟨hbelow, rfl⟩
  refine ⟨fun text => ?_, fun text => ?_, hchart, fun text parsed h => ?_, inferInstance,
    fun _ _ => Version.eq_iff, ?_, ?_⟩
  · rw [Option.isSome_iff_exists]
    simp only [parseChart_eq_some]
    exact ⟨fun ⟨_, version, hbelow, hrender, _⟩ => ⟨version, hbelow, hrender⟩,
      fun ⟨version, hbelow, hrender⟩ => ⟨_, version, hbelow, hrender, rfl⟩⟩
  · rw [Option.isSome_iff_exists]
    simp only [parse_eq_some]
    exact ⟨fun ⟨_, version, hbelow, hrender, hbuild, _⟩ => ⟨version, hbelow, hrender, hbuild⟩,
      fun ⟨version, hbelow, hrender, hbuild⟩ => ⟨_, version, hbelow, hrender, hbuild, rfl⟩⟩
  · obtain ⟨version, hbelow, hrender, rfl⟩ := parseChart_eq_some.mp h
    show String.ofList version.render = text
    rw [hrender, String.ofList_toList]
  · intro first second parsed other version against hfirst hsecond hrender hrenderToo
    obtain ⟨hbelow, rfl⟩ := hread hfirst hrender
    obtain ⟨hbelowToo, rfl⟩ := hread hsecond hrenderToo
    rw [compare_of hbelow hbelowToo]
    exact ⟨rfl, SemVer.precedence_eq_eq⟩
  · intro first second parsed other hfirst hsecond hequal
    obtain ⟨version, hbelow, hrender, hbuild, rfl⟩ := parse_eq_some.mp hfirst
    obtain ⟨against, hbelowToo, hrenderToo, hbuildToo, rfl⟩ := parse_eq_some.mp hsecond
    rw [compare_of hbelow hbelowToo] at hequal
    have hreleased := SemVer.Version.ext_iff.mp (SemVer.precedence_eq_eq.mp hequal)
    have hsame : version = against := SemVer.Version.ext hreleased.1 hreleased.2.1
      hreleased.2.2.1 hreleased.2.2.2.1 (hbuild.trans hbuildToo.symm)
    rw [hsame] at hrender
    exact String.toList_injective (hrender.symm.trans hrenderToo)

end Platform
end SaasFabric
