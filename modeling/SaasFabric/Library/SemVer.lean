import Mathlib.Data.Char
import Mathlib.Data.Nat.Digits.Defs
import Mathlib.Tactic.Common

/-!
# Semantic versions

The grammar of SemVer 2.0.0 and its precedence: numbers are compared as numbers, however many
digits they have, and what is compared of other identifiers is their text.
-/

namespace SaasFabric
namespace Library
namespace SemVer

/-! ## Identifiers -/

/-- `<numeric identifier>`: `0`, or digits of which the first is positive. -/
def isNumeric : List Char → Bool
  | [] => false
  | ['0'] => true
  | first :: rest => first.isDigit && first != '0' && rest.all Char.isDigit

/-- `<digits>`. -/
def isDigits (text : List Char) : Bool := !text.isEmpty && text.all Char.isDigit

/-- `<identifier character>`. -/
def isIdentifierCharacter (c : Char) : Bool := c.isAlphanum || c == '-'

/-- `<alphanumeric identifier>`: identifier characters, and not only digits. -/
def isAlphanumeric (text : List Char) : Bool :=
  text.all isIdentifierCharacter && text.any fun c => !c.isDigit

/-- `<pre-release identifier>`. -/
def isPrerelease (text : List Char) : Bool := isAlphanumeric text || isNumeric text

/-- `<build identifier>`. -/
def isBuild (text : List Char) : Bool := isAlphanumeric text || isDigits text

/-- The number some decimal digits stand for. -/
def value (digits : List Char) : Nat :=
  Nat.ofDigits 10 (digits.reverse.map fun c => c.toNat - 48)

theorem isDigit_of_isNumeric {text : List Char} (h : isNumeric text = true) :
    ∀ c ∈ text, c.isDigit = true := by
  unfold isNumeric at h
  split at h
  · cases h
  · simp
  · rename_i first rest _
    simp only [Bool.and_eq_true, List.all_eq_true] at h
    exact List.forall_mem_cons.mpr ⟨h.1.1, h.2⟩

theorem ne_nil_of_isNumeric {text : List Char} (h : isNumeric text = true) : text ≠ [] := by
  rintro rfl
  cases h

/-- Only `0` itself starts with a zero. -/
theorem first_of_isNumeric {first : Char} {rest : List Char}
    (h : isNumeric (first :: rest) = true) (hrest : rest ≠ []) : first ≠ '0' := by
  unfold isNumeric at h
  split at h
  · cases h
  · rename_i heq
    exact absurd (List.cons.inj heq).2 hrest
  · rename_i heq
    obtain ⟨rfl, rfl⟩ := List.cons.inj heq
    simp only [Bool.and_eq_true, bne_iff_ne] at h
    exact h.1.2

theorem isIdentifierCharacter_of_isDigit {c : Char} (h : c.isDigit = true) :
    isIdentifierCharacter c = true := by
  simp [isIdentifierCharacter, Char.isAlphanum, h]

theorem isIdentifierCharacter_of_isAlphanumeric {text : List Char}
    (h : isAlphanumeric text = true) : ∀ c ∈ text, isIdentifierCharacter c = true :=
  List.all_eq_true.mp ((Bool.and_eq_true _ _).mp h).1

theorem isIdentifierCharacter_of_isPrerelease {text : List Char} (h : isPrerelease text = true) :
    ∀ c ∈ text, isIdentifierCharacter c = true := by
  rcases (Bool.or_eq_true _ _).mp h with halphanumeric | hnumeric
  · exact isIdentifierCharacter_of_isAlphanumeric halphanumeric
  · exact fun c hc => isIdentifierCharacter_of_isDigit (isDigit_of_isNumeric hnumeric c hc)

theorem isIdentifierCharacter_of_isBuild {text : List Char} (h : isBuild text = true) :
    ∀ c ∈ text, isIdentifierCharacter c = true := by
  rcases (Bool.or_eq_true _ _).mp h with halphanumeric | hdigits
  · exact isIdentifierCharacter_of_isAlphanumeric halphanumeric
  · intro c hc
    exact isIdentifierCharacter_of_isDigit
      (List.all_eq_true.mp ((Bool.and_eq_true _ _).mp hdigits).2 c hc)

/-- Among the identifiers of a prerelease, the numbers are those that are all digits. -/
theorem all_isDigit_of_isPrerelease {text : List Char} (h : isPrerelease text = true) :
    text.all Char.isDigit = isNumeric text := by
  rcases (Bool.or_eq_true _ _).mp h with halphanumeric | hnumeric
  · have hother := ((Bool.and_eq_true _ _).mp halphanumeric).2
    have hall : text.all Char.isDigit = false := by simpa using hother
    rw [hall, eq_comm, Bool.eq_false_iff]
    intro hnumeric
    rw [List.all_eq_true.mpr (isDigit_of_isNumeric hnumeric)] at hall
    cases hall
  · rw [hnumeric]
    exact List.all_eq_true.mpr (isDigit_of_isNumeric hnumeric)

/-! ## Versions -/

/-- A version by the parts it is written of; no prerelease and no build part where there is
none of its identifiers. -/
@[ext] structure Version where
  major : List Char
  minor : List Char
  patch : List Char
  pre : List (List Char)
  build : List (List Char)
  numbers : isNumeric major = true ∧ isNumeric minor = true ∧ isNumeric patch = true
  identifiers : ∀ part ∈ pre, isPrerelease part = true
  metadata : ∀ part ∈ build, isBuild part = true

namespace Version

/-- Identifiers behind what they are introduced by. -/
def suffix (introduced : Char) (parts : List (List Char)) : List Char :=
  if parts = [] then [] else introduced :: ['.'].intercalate parts

variable (version : Version)

/-- `<version core>`. -/
def core : List Char := ['.'].intercalate [version.major, version.minor, version.patch]

/-- `<valid semver>`: how a version is written. -/
def render : List Char := version.core ++ suffix '-' version.pre ++ suffix '+' version.build

variable {version}

/-- What is joined holds the separator, and what the parts hold. -/
theorem mem_of_mem_intercalate {separator c : Char} {parts : List (List Char)}
    (h : c ∈ [separator].intercalate parts) : c = separator ∨ ∃ part ∈ parts, c ∈ part := by
  induction parts with
  | nil => cases h
  | cons part parts ih =>
      by_cases hparts : parts = []
      · rw [hparts, List.intercalate_singleton] at h
        exact Or.inr ⟨part, List.mem_cons_self, h⟩
      · rw [List.intercalate_cons_of_ne_nil hparts] at h
        simp only [List.mem_append, List.mem_singleton] at h
        rcases h with (hpart | hseparator) | hrest
        · exact Or.inr ⟨part, List.mem_cons_self, hpart⟩
        · exact Or.inl hseparator
        · refine (ih hrest).imp_right ?_
          rintro ⟨later, hlater, hc⟩
          exact ⟨later, List.mem_cons_of_mem _ hlater, hc⟩

theorem not_mem_suffix {introduced c : Char} {parts : List (List Char)}
    (hparts : ∀ part ∈ parts, ∀ c ∈ part, isIdentifierCharacter c = true)
    (hother : isIdentifierCharacter c = false) (hdot : c ≠ '.') (hintroduced : c ≠ introduced) :
    c ∉ suffix introduced parts := by
  unfold suffix
  split
  · exact List.not_mem_nil
  · intro hmem
    rcases List.mem_cons.mp hmem with heq | hmem
    · exact hintroduced heq
    · rcases mem_of_mem_intercalate hmem with heq | ⟨part, hpart, hc⟩
      · exact hdot heq
      · rw [hparts part hpart c hc] at hother
        cases hother

/-- The core is digits and dots. -/
theorem not_mem_core {c : Char} (hdigit : c.isDigit = false) (hdot : c ≠ '.') :
    c ∉ version.core := by
  intro hmem
  rcases mem_of_mem_intercalate hmem with heq | ⟨part, hpart, hc⟩
  · exact hdot heq
  · have hnumeric : isNumeric part = true := by
      obtain ⟨hmajor, hminor, hpatch⟩ := version.numbers
      simp only [List.mem_cons, List.not_mem_nil, or_false] at hpart
      rcases hpart with rfl | rfl | rfl
      · exact hmajor
      · exact hminor
      · exact hpatch
    rw [isDigit_of_isNumeric hnumeric c hc] at hdigit
    cases hdigit

variable (version)

/-- A version without its build part. -/
def released : Version := { version with build := [], metadata := nofun }

/-- The numbers of the core are below a bound. -/
structure Below (bound : Nat) : Prop where
  major : value version.major < bound
  minor : value version.minor < bound
  patch : value version.patch < bound

end Version

/-! ## Precedence -/

/-- Two identifiers of a prerelease: numbers by their size and below every text, texts in the
order of ASCII. -/
def compareIdentifiers (first second : List Char) : Ordering :=
  match isNumeric first, isNumeric second with
  | true, true => compare (value first) (value second)
  | true, false => .lt
  | false, true => .gt
  | false, false => compare first second

/-- Two prereleases: none is above every one, and otherwise the first identifier that differs
decides, or that there are more of them. -/
def comparePrereleases (first second : List (List Char)) : Ordering :=
  match first, second with
  | [], [] => .eq
  | [], _ :: _ => .gt
  | _ :: _, [] => .lt
  | _ :: _, _ :: _ => List.compareLex compareIdentifiers first second

/-- The precedence of two versions: their build parts have none. -/
def precedence (first second : Version) : Ordering :=
  (compare (value first.major) (value second.major)).then <|
    (compare (value first.minor) (value second.minor)).then <|
      (compare (value first.patch) (value second.patch)).then <|
        comparePrereleases first.pre second.pre

/-! ## Numbers by their digits -/

theorem value_cons (first : Char) (rest : List Char) :
    value (first :: rest) = value rest + 10 ^ rest.length * (first.toNat - 48) := by
  unfold value
  rw [List.reverse_cons, List.map_append, Nat.ofDigits_append]
  simp

theorem value_lt {digits : List Char} (h : ∀ c ∈ digits, c.isDigit = true) :
    value digits < 10 ^ digits.length := by
  have hdigits : ∀ digit ∈ digits.reverse.map fun c => c.toNat - 48, digit < 10 := by
    intro digit hdigit
    obtain ⟨c, hc, rfl⟩ := List.mem_map.mp hdigit
    have hc := Char.isDigit_iff_toNat.mp (h c (List.mem_reverse.mp hc))
    have hnine : ('9' : Char).toNat = 57 := rfl
    omega
  have hlt := Nat.ofDigits_lt_base_pow_length (by decide) hdigits
  rwa [List.length_map, List.length_reverse] at hlt

/-- A number of more digits is larger. -/
theorem pow_le_value {digits : List Char} (h : isNumeric digits = true)
    (hlong : 2 ≤ digits.length) : 10 ^ (digits.length - 1) ≤ value digits := by
  cases digits with
  | nil => cases h
  | cons first rest =>
      have hrest : rest ≠ [] := by
        rintro rfl
        simp at hlong
      have hfirst := first_of_isNumeric h hrest
      have hdigit := Char.isDigit_iff_toNat.mp
        (isDigit_of_isNumeric h first List.mem_cons_self)
      have hpositive : 1 ≤ first.toNat - 48 := by
        have hzero : ('0' : Char).toNat = 48 := rfl
        have hne : first.toNat ≠ 48 := fun heq => hfirst (Char.ext (UInt32.toNat_inj.mp heq))
        omega
      rw [value_cons, List.length_cons, Nat.add_sub_cancel]
      calc 10 ^ rest.length = 10 ^ rest.length * 1 := (Nat.mul_one _).symm
        _ ≤ 10 ^ rest.length * (first.toNat - 48) := Nat.mul_le_mul_left _ hpositive
        _ ≤ value rest + 10 ^ rest.length * (first.toNat - 48) := Nat.le_add_left _ _

theorem compare_add_right (first second added : Nat) :
    compare (first + added) (second + added) = compare first second := by
  rcases lt_trichotomy first second with hlt | rfl | hgt
  · rw [Nat.compare_eq_lt.mpr hlt, Nat.compare_eq_lt.mpr (by omega)]
  · rw [Nat.compare_eq_eq.mpr rfl, Nat.compare_eq_eq.mpr rfl]
  · rw [Nat.compare_eq_gt.mpr hgt, Nat.compare_eq_gt.mpr (by omega)]

/-- The first digit that is smaller decides. -/
theorem value_cons_lt {first second : Char} {rest others : List Char}
    (hrest : ∀ c ∈ rest, c.isDigit = true) (hlength : rest.length = others.length)
    (hfirst : first.isDigit = true) (hlt : first < second) :
    value (first :: rest) < value (second :: others) := by
  have hbelow := value_lt hrest
  have hdigit := (Char.isDigit_iff_toNat.mp hfirst).1
  have hzero : ('0' : Char).toNat = 48 := rfl
  have hsize : first.toNat < second.toNat := hlt
  have hstep : first.toNat - 48 + 1 ≤ second.toNat - 48 := by omega
  rw [value_cons, value_cons, ← hlength]
  calc value rest + 10 ^ rest.length * (first.toNat - 48)
      < 10 ^ rest.length * (first.toNat - 48 + 1) := by
        rw [Nat.mul_succ]
        omega
    _ ≤ 10 ^ rest.length * (second.toNat - 48) := Nat.mul_le_mul_left _ hstep
    _ ≤ value others + 10 ^ rest.length * (second.toNat - 48) := Nat.le_add_left _ _

/-- Numbers of as many digits are compared as their texts are. -/
theorem compare_value_of_length {first second : List Char}
    (hfirst : ∀ c ∈ first, c.isDigit = true) (hsecond : ∀ c ∈ second, c.isDigit = true)
    (hlength : first.length = second.length) :
    compare (value first) (value second) = compare first second := by
  induction first generalizing second with
  | nil =>
      rw [List.eq_nil_of_length_eq_zero hlength.symm]
      rfl
  | cons a rest ih =>
      cases second with
      | nil => cases hlength
      | cons b others =>
          rw [List.forall_mem_cons] at hfirst hsecond
          have hrest : rest.length = others.length := Nat.succ.inj hlength
          rw [List.compare_cons_cons]
          cases hcompare : compare a b with
          | lt =>
              have hlt : a < b := compare_lt_iff_lt.mp hcompare
              exact Nat.compare_eq_lt.mpr (value_cons_lt hfirst.2 hrest hfirst.1 hlt)
          | gt =>
              have hgt : b < a := compare_gt_iff_gt.mp hcompare
              exact Nat.compare_eq_gt.mpr (value_cons_lt hsecond.2 hrest.symm hsecond.1 hgt)
          | eq =>
              rw [Std.LawfulEqOrd.eq_of_compare hcompare, value_cons, value_cons, ← hrest,
                compare_add_right]
              exact ih hfirst.2 hsecond.2 hrest

theorem value_lt_of_length_lt {first second : List Char} (hfirst : isNumeric first = true)
    (hsecond : isNumeric second = true) (hlength : first.length < second.length) :
    value first < value second := by
  have hpos : 0 < first.length := List.length_pos_iff.mpr (ne_nil_of_isNumeric hfirst)
  calc value first < 10 ^ first.length := value_lt (isDigit_of_isNumeric hfirst)
    _ ≤ 10 ^ (second.length - 1) := Nat.pow_le_pow_right (by decide) (by omega)
    _ ≤ value second := pow_le_value hsecond (by omega)

/-- Numbers are compared by how many digits they have, and then as their texts are. -/
theorem compare_value {first second : List Char} (hfirst : isNumeric first = true)
    (hsecond : isNumeric second = true) : compare (value first) (value second) =
      (compare first.length second.length).then (compare first second) := by
  rcases lt_trichotomy first.length second.length with hlt | heq | hgt
  · rw [Nat.compare_eq_lt.mpr hlt, Nat.compare_eq_lt.mpr
      (value_lt_of_length_lt hfirst hsecond hlt)]
    rfl
  · rw [Nat.compare_eq_eq.mpr heq]
    exact compare_value_of_length (isDigit_of_isNumeric hfirst) (isDigit_of_isNumeric hsecond) heq
  · rw [Nat.compare_eq_gt.mpr hgt, Nat.compare_eq_gt.mpr
      (value_lt_of_length_lt hsecond hfirst hgt)]
    rfl

/-- A number is written in one way. -/
theorem eq_of_value_eq {first second : List Char} (hfirst : isNumeric first = true)
    (hsecond : isNumeric second = true) (h : value first = value second) : first = second := by
  have hcompare := compare_value hfirst hsecond
  rw [Nat.compare_eq_eq.mpr h] at hcompare
  obtain ⟨-, htext⟩ := Ordering.then_eq_eq.mp hcompare.symm
  exact Std.LawfulEqOrd.eq_of_compare htext

/-! ## What has the same precedence -/

instance : Std.ReflCmp compareIdentifiers where
  compare_self := by
    intro text
    unfold compareIdentifiers
    cases isNumeric text with
    | false => exact Std.ReflCmp.compare_self
    | true => exact Nat.compare_eq_eq.mpr rfl

instance : Std.LawfulEqCmp compareIdentifiers where
  eq_of_compare := by
    intro first second h
    unfold compareIdentifiers at h
    split at h
    · rename_i hfirst hsecond
      exact eq_of_value_eq hfirst hsecond (Nat.compare_eq_eq.mp h)
    · cases h
    · cases h
    · exact Std.LawfulEqOrd.eq_of_compare h

theorem comparePrereleases_eq_eq {first second : List (List Char)} :
    comparePrereleases first second = .eq ↔ first = second := by
  unfold comparePrereleases
  split
  · exact ⟨fun _ => rfl, fun _ => rfl⟩
  · exact ⟨nofun, nofun⟩
  · exact ⟨nofun, nofun⟩
  · exact Std.LawfulEqCmp.compare_eq_iff_eq

/-- Two versions have the same precedence exactly where they differ at most in their build. -/
theorem precedence_eq_eq {first second : Version} :
    precedence first second = .eq ↔ first.released = second.released := by
  unfold precedence
  simp only [Ordering.then_eq_eq, Nat.compare_eq_eq, comparePrereleases_eq_eq]
  constructor
  · rintro ⟨hmajor, hminor, hpatch, hpre⟩
    obtain ⟨hmajorOne, hminorOne, hpatchOne⟩ := first.numbers
    obtain ⟨hmajorTwo, hminorTwo, hpatchTwo⟩ := second.numbers
    exact Version.ext (eq_of_value_eq hmajorOne hmajorTwo hmajor)
      (eq_of_value_eq hminorOne hminorTwo hminor) (eq_of_value_eq hpatchOne hpatchTwo hpatch)
      hpre rfl
  · intro h
    obtain ⟨hmajor, hminor, hpatch, hpre, -⟩ := Version.ext_iff.mp h
    exact ⟨congrArg value hmajor, congrArg value hminor, congrArg value hpatch, hpre⟩

end SemVer
end Library
end SaasFabric
