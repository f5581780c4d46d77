import Mathlib.Data.List.DropRight
import Mathlib.Data.List.TakeDrop
import Mathlib.Tactic.Common

/-!
# Text

The functions of the standard library's `str` and `char` that the modelled code reads text
with, as functions on the characters.
-/

namespace SaasFabric

/-- `char::is_whitespace`: the Unicode property `White_Space`. -/
def isWhitespace (c : Char) : Bool :=
  (0x9 ≤ c.toNat && c.toNat ≤ 0xD) || c.toNat == 0x20 || c.toNat == 0x85 ||
    c.toNat == 0xA0 || c.toNat == 0x1680 || (0x2000 ≤ c.toNat && c.toNat ≤ 0x200A) ||
    c.toNat == 0x2028 || c.toNat == 0x2029 || c.toNat == 0x202F || c.toNat == 0x205F ||
    c.toNat == 0x3000

/-- `char::is_control`: the Unicode category `Cc`. -/
def isControl (c : Char) : Bool :=
  c.toNat ≤ 0x1F || (0x7F ≤ c.toNat && c.toNat ≤ 0x9F)

namespace Text

theorem isLower_eq (c : Char) : c.isLower = (c.val ≥ 'a'.val && c.val ≤ 'z'.val) := rfl

theorem isUpper_eq (c : Char) : c.isUpper = (c.val ≥ 'A'.val ∧ c.val ≤ 'Z'.val : Bool) := rfl

/-- What is said of all characters of a text is decided along the text, however many characters
there are. -/
instance decidableForallMem (said : Char → Prop) [DecidablePred said] (text : List Char) :
    Decidable (∀ c ∈ text, said c) :=
  List.decidableBAll said text

/-- `str::trim`. -/
def trim (text : String) : String :=
  String.ofList ((text.toList.dropWhile isWhitespace).reverse.dropWhile isWhitespace).reverse

/-- What is trimmed has no blank at either end. -/
@[simp] theorem trim_trim (text : String) : trim (trim text) = trim text := by
  have htrim : ∀ text : String, trim text =
      String.ofList ((text.toList.dropWhile isWhitespace).rdropWhile isWhitespace) := fun _ => rfl
  have hstart : ((text.toList.dropWhile isWhitespace).rdropWhile isWhitespace).dropWhile
      isWhitespace = (text.toList.dropWhile isWhitespace).rdropWhile isWhitespace := by
    -- What is left starts where the blanks at the start end.
    have hstarts := List.rdropWhile_prefix isWhitespace (text.toList.dropWhile isWhitespace)
    have hfirst := List.dropWhile_get_zero_not isWhitespace text.toList
    generalize text.toList.dropWhile isWhitespace = rest at hstarts hfirst ⊢
    rw [List.dropWhile_eq_self_iff]
    intro hpos
    rw [hstarts.getElem hpos]
    exact hfirst _
  rw [htrim, htrim, String.toList_ofList, hstart, List.rdropWhile_idempotent]

/-- `str::trim_start`. -/
def trimStart (text : String) : String :=
  String.ofList (text.toList.dropWhile isWhitespace)

/-- `str::starts_with`. -/
def startsWith (text start : String) : Bool := start.toList.isPrefixOf text.toList

/-- `str::ends_with`. -/
def endsWith (text finish : String) : Bool := finish.toList.isSuffixOf text.toList

/-- `str::split_inclusive` at a line feed: every line with the characters that ended it. -/
def splitInclusive : List Char → List (List Char)
  | [] => []
  | c :: rest =>
      if c = '\n' then
        [c] :: splitInclusive rest
      else
        match splitInclusive rest with
        | [] => [[c]]
        | line :: lines => (c :: line) :: lines

/-- Separates a line from what ended it: a line feed, with a carriage return before it or
without one, or nothing. -/
def unterminate (raw : List Char) : List Char × List Char :=
  match raw.reverse with
  | '\n' :: '\r' :: body => (body.reverse, ['\r', '\n'])
  | '\n' :: body => (body.reverse, ['\n'])
  | _ => (raw, [])

/-- `str::lines`. -/
def lines (text : String) : List (List Char) :=
  (splitInclusive text.toList).map fun raw => (unterminate raw).1

/-- `str::split` at a character. -/
def split (separator : Char) (text : String) : List String :=
  (text.toList.splitOn separator).map String.ofList

/-- `str::split_once` at a character. -/
def splitOnce (separator : Char) (text : String) : Option (String × String) :=
  match text.toList.span (· != separator) with
  | (_, []) => none
  | (before, _ :: after) => some (String.ofList before, String.ofList after)

theorem splitOnce_eq_none {separator : Char} {text : String} :
    splitOnce separator text = none ↔ separator ∉ text.toList := by
  unfold splitOnce
  rw [List.span_eq_takeWhile_dropWhile]
  split
  · rename_i hnone
    refine ⟨fun _ hmem => ?_, fun _ => rfl⟩
    have hall := List.dropWhile_eq_nil_iff.mp (Prod.mk.inj hnone).2 separator hmem
    simp at hall
  · rename_i separated after hsome
    refine ⟨nofun, fun hmem => ?_⟩
    have hnil : text.toList.dropWhile (· != separator) = [] :=
      List.dropWhile_eq_nil_iff.mpr fun c hc => bne_iff_ne.mpr fun heq => hmem (heq ▸ hc)
    rw [hnil] at hsome
    cases (Prod.mk.inj hsome).2

/-- What is split off ends at the first separator. -/
theorem splitOnce_eq_some {separator : Char} {text before after : String} :
    splitOnce separator text = some (before, after) ↔
      text.toList = before.toList ++ separator :: after.toList ∧ separator ∉ before.toList := by
  constructor
  · intro h
    unfold splitOnce at h
    rw [List.span_eq_takeWhile_dropWhile] at h
    split at h
    · cases h
    · rename_i first other later hsplit
      cases h
      obtain ⟨hfirst, hlater⟩ := Prod.mk.inj hsplit
      have hseparator : other = separator := by
        have hhead := List.head_dropWhile_not (· != separator)
          (l := text.toList) (by rw [hlater]; exact List.cons_ne_nil _ _)
        simpa [hlater] using hhead
      constructor
      · rw [String.toList_ofList, String.toList_ofList, ← hseparator, ← hlater, ← hfirst]
        exact (List.takeWhile_append_dropWhile).symm
      · rw [String.toList_ofList, ← hfirst]
        intro hmem
        have hbefore := List.mem_takeWhile_imp hmem
        simp at hbefore
  · rintro ⟨htext, hbefore⟩
    have hpos : ∀ c ∈ before.toList, (c != separator) = true := fun c hc =>
      bne_iff_ne.mpr fun heq => hbefore (heq ▸ hc)
    unfold splitOnce
    rw [List.span_eq_takeWhile_dropWhile, htext, List.takeWhile_append_of_pos hpos,
      List.dropWhile_append_of_pos hpos]
    simp

/-- `str::split_whitespace`. -/
def splitWhitespace (text : String) : List String :=
  ((text.toList.splitOnP isWhitespace).map String.ofList).filter (· != "")

/-- `str::eq_ignore_ascii_case`. -/
def eqIgnoreAsciiCase (first second : String) : Bool :=
  first.toList.map Char.toLower == second.toList.map Char.toLower

/-- `str::contains` of a character. -/
def contains (text : String) (character : Char) : Bool := text.toList.contains character

/-- What is read of the decimal digits of a number, on top of what was read before them. -/
def parseDigits : Nat → List Char → Option Nat
  | value, [] => some value
  | value, c :: rest =>
      if c.isDigit then parseDigits (10 * value + (c.toNat - 0x30)) rest else none

/-- `str::parse` to an unsigned number below a bound; a sign in front may only be a plus. -/
def parseUnsigned (bound : Nat) (text : String) : Option (Fin bound) :=
  let digits := match text.toList with
    | '+' :: rest => rest
    | digits => digits
  if digits.isEmpty then none
  else match parseDigits 0 digits with
    | some value => if h : value < bound then some ⟨value, h⟩ else none
    | none => none

/-- Digits alone are read without a sign. -/
theorem parseUnsigned_of_digits {bound : Nat} {text : String}
    (hdigits : ∀ c ∈ text.toList, c.isDigit = true) (hnonempty : text.toList ≠ []) :
    parseUnsigned bound text = (parseDigits 0 text.toList).bind fun value =>
      if h : value < bound then some ⟨value, h⟩ else none := by
  have hsign : (match text.toList with
      | '+' :: rest => rest
      | digits => digits) = text.toList := by
    split
    · rename_i rest hplus
      rw [hplus] at hdigits
      exact absurd (hdigits '+' List.mem_cons_self) (by decide)
    · rfl
  unfold parseUnsigned
  dsimp only
  rw [hsign, List.isEmpty_eq_false_iff.mpr hnonempty]
  cases parseDigits 0 text.toList <;> rfl

/-! ## Occurrences -/

/-- `str::contains` of a text, on slices. -/
def containsSlice (pattern : List Char) : List Char → Bool
  | [] => pattern.isEmpty
  | c :: rest => pattern.isPrefixOf (c :: rest) || containsSlice pattern rest

/-- `str::matches(pattern).count()`, past the characters of a match that was counted. -/
def matchCount (pattern : List Char) : Nat → List Char → Nat
  | _, [] => 0
  | skip + 1, _ :: rest => matchCount pattern skip rest
  | 0, c :: rest =>
      if pattern.isPrefixOf (c :: rest) then matchCount pattern (pattern.length - 1) rest + 1
      else matchCount pattern 0 rest

/-- `str::replace`, past the characters of a match that was replaced. -/
def replaceSlice (pattern new : List Char) : Nat → List Char → List Char
  | _, [] => []
  | skip + 1, _ :: rest => replaceSlice pattern new skip rest
  | 0, c :: rest =>
      if pattern.isPrefixOf (c :: rest) then
        new ++ replaceSlice pattern new (pattern.length - 1) rest
      else c :: replaceSlice pattern new 0 rest

theorem containsSlice_iff {pattern text : List Char} :
    containsSlice pattern text = true ↔ pattern <:+: text := by
  induction text with
  | nil => simp [containsSlice]
  | cons c rest ih =>
    rw [containsSlice, Bool.or_eq_true, List.isPrefixOf_iff_prefix, ih, List.infix_cons_iff]

theorem matchCount_skip (pattern : List Char) (skip : Nat) (text : List Char) :
    matchCount pattern skip text = matchCount pattern 0 (text.drop skip) := by
  induction text generalizing skip with
  | nil => simp [matchCount]
  | cons c rest ih =>
    cases skip with
    | zero => rfl
    | succ skip => rw [matchCount, ih, List.drop_succ_cons]

theorem replaceSlice_skip (pattern new : List Char) (skip : Nat) (text : List Char) :
    replaceSlice pattern new skip text = replaceSlice pattern new 0 (text.drop skip) := by
  induction text generalizing skip with
  | nil => simp [replaceSlice]
  | cons c rest ih =>
    cases skip with
    | zero => rfl
    | succ skip => rw [replaceSlice, ih, List.drop_succ_cons]

/-- Where nothing matches nothing is replaced. -/
theorem replaceSlice_of_matchCount_zero {pattern text : List Char}
    (h : matchCount pattern 0 text = 0) (new : List Char) :
    replaceSlice pattern new 0 text = text := by
  induction text with
  | nil => rfl
  | cons c rest ih =>
    rw [matchCount] at h
    rw [replaceSlice]
    split at h
    · omega
    · next hpattern => rw [if_neg hpattern, ih h]

/-- A text with one match is what stands before it, the match, and what stands after it; nothing
matches any earlier, and replacing it keeps the rest. -/
theorem exists_of_matchCount_one {pattern text : List Char} (hpattern : pattern ≠ [])
    (h : matchCount pattern 0 text = 1) :
    ∃ before after, text = before ++ pattern ++ after ∧
      (∀ earlier later, text = earlier ++ pattern ++ later → before.length ≤ earlier.length) ∧
      ∀ new, replaceSlice pattern new 0 text = before ++ new ++ after := by
  induction text with
  | nil => exact absurd h (by simp [matchCount])
  | cons c rest ih =>
    have hlength : 0 < pattern.length := List.length_pos_iff.mpr hpattern
    rw [matchCount] at h
    split at h
    · next hfirst =>
      obtain ⟨after, hafter⟩ := List.isPrefixOf_iff_prefix.mp hfirst
      have hdrop : rest.drop (pattern.length - 1) = after := by
        rw [← List.drop_succ_cons (a := c), Nat.sub_add_cancel hlength, ← hafter,
          List.drop_left]
      rw [matchCount_skip, hdrop] at h
      refine ⟨[], after, by rw [List.nil_append, hafter], fun _ _ _ => Nat.zero_le _,
        fun new => ?_⟩
      rw [replaceSlice, if_pos hfirst, replaceSlice_skip, hdrop,
        replaceSlice_of_matchCount_zero (by omega), List.nil_append]
    · next hfirst =>
      obtain ⟨before, after, hrest, hleast, hreplace⟩ := ih h
      refine ⟨c :: before, after, by rw [hrest]; rfl, fun earlier later htext => ?_,
        fun new => by rw [replaceSlice, if_neg hfirst, hreplace]; rfl⟩
      cases earlier with
      | nil =>
        refine absurd (List.isPrefixOf_iff_prefix.mpr ⟨later, ?_⟩) hfirst
        rw [htext, List.nil_append]
      | cons other earlier =>
        have hle := hleast earlier later (List.cons.inj htext).2
        exact Nat.succ_le_succ hle

/-! ## Sizes -/

/-- ASCII text is as many bytes as it is characters. -/
theorem utf8ByteSize_of_ascii {text : String} (h : ∀ c ∈ text.toList, c.toNat < 128) :
    text.utf8ByteSize = text.toList.length := by
  have hone : ∀ c : Char, c.toNat < 128 → (String.utf8EncodeChar c).length = 1 := by
    intro c hc
    rw [String.length_utf8EncodeChar, Char.utf8Size_eq_one_iff]
    exact UInt32.le_iff_toNat_le.mpr (by
      show c.toNat ≤ 127
      omega)
  have hsize : ∀ characters : List Char, (∀ c ∈ characters, c.toNat < 128) →
      (characters.flatMap String.utf8EncodeChar).length = characters.length := by
    intro characters hascii
    rw [List.length_flatMap, List.map_congr_left fun c hc => hone c (hascii c hc)]
    simp
  rw [← String.size_toByteArray]
  conv => lhs; rw [← String.ofList_toList (s := text), String.toByteArray_ofList]
  simpa [List.utf8Encode] using hsize text.toList h

/-! ## Lossy decoding -/

/-- `U+FFFD`, what stands in for bytes that are not UTF-8. -/
def replacement : Char := Char.ofNat 0xFFFD

/-- A byte that may only continue a sequence. -/
def isContinuation (byte : UInt8) : Bool := 0x80 ≤ byte.toNat && byte.toNat ≤ 0xBF

/-- The first byte of a sequence of two. -/
def leadsTwo (first : UInt8) : Bool := 0xC2 ≤ first.toNat && first.toNat ≤ 0xDF

/-- The first two bytes of a sequence of three: no overlong form and no surrogate. -/
def leadsThree (first second : UInt8) : Bool :=
  (first == 0xE0 && 0xA0 ≤ second.toNat && second.toNat ≤ 0xBF) ||
    (0xE1 ≤ first.toNat && first.toNat ≤ 0xEC && isContinuation second) ||
    (first == 0xED && 0x80 ≤ second.toNat && second.toNat ≤ 0x9F) ||
    (0xEE ≤ first.toNat && first.toNat ≤ 0xEF && isContinuation second)

/-- The first two bytes of a sequence of four: no overlong form, nothing past `U+10FFFF`. -/
def leadsFour (first second : UInt8) : Bool :=
  (first == 0xF0 && 0x90 ≤ second.toNat && second.toNat ≤ 0xBF) ||
    (0xF1 ≤ first.toNat && first.toNat ≤ 0xF3 && isContinuation second) ||
    (first == 0xF4 && 0x80 ≤ second.toNat && second.toNat ≤ 0x8F)

/-- The bits a continuation byte adds to the code point so far. -/
def continued (value : Nat) (byte : UInt8) : Nat := 64 * value + (byte.toNat - 0x80)

/-- The character a sequence starting with these bytes is read as, and how many of the bytes
after the first it takes: the longest start of a sequence that does not go on as one is read as
one `U+FFFD`. -/
def decodeFirst (first : UInt8) (rest : List UInt8) : Char × Nat :=
  if first.toNat < 0x80 then (Char.ofNat first.toNat, 0)
  else match rest with
    | [] => (replacement, 0)
    | second :: rest =>
        if leadsTwo first && isContinuation second then
          (Char.ofNat (continued (first.toNat - 0xC0) second), 1)
        else if leadsThree first second then
          match rest with
          | third :: _ =>
              if isContinuation third then
                (Char.ofNat (continued (continued (first.toNat - 0xE0) second) third), 2)
              else (replacement, 1)
          | [] => (replacement, 1)
        else if leadsFour first second then
          match rest with
          | third :: fourth :: _ =>
              if isContinuation third && isContinuation fourth then
                (Char.ofNat (continued (continued (continued (first.toNat - 0xF0) second) third)
                  fourth), 3)
              else if isContinuation third then (replacement, 2)
              else (replacement, 1)
          | [third] => if isContinuation third then (replacement, 2) else (replacement, 1)
          | [] => (replacement, 1)
        else (replacement, 0)

/-- Reads characters, the first of them after a number of bytes already taken. -/
def decodeLossy : Nat → List UInt8 → List Char
  | _, [] => []
  | 0, first :: rest =>
      let (character, taken) := decodeFirst first rest
      character :: decodeLossy taken rest
  | taken + 1, _ :: rest => decodeLossy taken rest

/-- `String::from_utf8_lossy`. -/
def fromUtf8Lossy (bytes : List UInt8) : String := String.ofList (decodeLossy 0 bytes)

example : decodeLossy 0 [0x61, 0xC3, 0xA9, 0xE2, 0x82, 0x62] =
    ['a', Char.ofNat 0xE9, replacement, 'b'] := by decide

end Text

end SaasFabric
