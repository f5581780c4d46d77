import Mathlib.Data.List.TakeDrop
import Mathlib.Data.List.TakeWhile
import SaasFabric.Library.Json

/-!
# JSON as it is written and read

The compact form of a JSON text, and a reader of any JSON text.  A numeral is a natural number,
or one of another form, which nothing here tells apart.  What is written is read back, and is a
single line.
-/

namespace SaasFabric
namespace Library

/-- A number as a text spells it. -/
inductive Numeral where
  | natural (value : Nat)
  | other
deriving DecidableEq

namespace Json

/-- Induction on a text, with the hypothesis for every item and every member. -/
@[induction_eliminator]
theorem induct {N : Type} {motive : Json N → Prop} (null : motive .null)
    (bool : ∀ value, motive (.bool value)) (number : ∀ value, motive (.number value))
    (string : ∀ text, motive (.string text))
    (array : ∀ items, (∀ item ∈ items, motive item) → motive (.array items))
    (object : ∀ members, (∀ member ∈ members, motive member.2) → motive (.object members)) :
    ∀ json, motive json
  | .null => null
  | .bool value => bool value
  | .number value => number value
  | .string text => string text
  | .array items =>
      array items fun item _ => induct null bool number string array object item
  | .object members =>
      object members fun member _ => induct null bool number string array object member.2
termination_by json => sizeOf json
decreasing_by
  · rename_i hitem
    have hlt := List.sizeOf_lt_of_mem hitem
    simp only [Json.array.sizeOf_spec]
    omega
  · rename_i hmember
    have hlt := List.sizeOf_lt_of_mem hmember
    have hpair : sizeOf member.2 < sizeOf member := by
      cases member
      simp only [Prod.mk.sizeOf_spec]
      omega
    simp only [Json.object.sizeOf_spec]
    omega

mutual

/-- How deep arrays and objects are nested. -/
def depth {N : Type} : Json N → Nat
  | .null | .bool _ | .number _ | .string _ => 0
  | .array items => depthItems items + 1
  | .object members => depthMembers members + 1

def depthItems {N : Type} : List (Json N) → Nat
  | [] => 0
  | item :: items => max (depth item) (depthItems items)

def depthMembers {N : Type} : List (String × Json N) → Nat
  | [] => 0
  | (_, value) :: members => max (depth value) (depthMembers members)

end

theorem depth_le_depthItems {N : Type} {items : List (Json N)} {item : Json N}
    (h : item ∈ items) : item.depth ≤ depthItems items := by
  induction items with
  | nil => cases h
  | cons first items ih =>
      rw [depthItems]
      rcases List.mem_cons.mp h with rfl | hrest
      · exact le_max_left _ _
      · exact (ih hrest).trans (le_max_right _ _)

theorem depth_le_depthMembers {N : Type} {members : List (String × Json N)}
    {member : String × Json N} (h : member ∈ members) :
    member.2.depth ≤ depthMembers members := by
  induction members with
  | nil => cases h
  | cons first members ih =>
      obtain ⟨name, value⟩ := first
      rw [depthMembers]
      rcases List.mem_cons.mp h with rfl | hrest
      · exact le_max_left _ _
      · exact (ih hrest).trans (le_max_right _ _)

end Json

namespace JsonText

/-! ## Writing -/

/-- A character inside a string: escaped where it is a quote, a backslash or a control. -/
def escape (c : Char) : List Char :=
  match c.toNat with
  | 34 => ['\\', '"']
  | 92 => ['\\', '\\']
  | 8 => ['\\', 'b']
  | 9 => ['\\', 't']
  | 10 => ['\\', 'n']
  | 12 => ['\\', 'f']
  | 13 => ['\\', 'r']
  | code =>
      if code < 32 then
        ['\\', 'u', '0', '0', Nat.digitChar (code / 16), Nat.digitChar (code % 16)]
      else [c]

def writeString (text : String) : List Char := '"' :: text.toList.flatMap escape ++ ['"']

def writeNumeral : Numeral → List Char
  | .natural value => Nat.toDigits 10 value
  | .other => ['-', '0']

mutual

/-- The compact form: no whitespace between anything. -/
def write : Json Numeral → List Char
  | .null => ['n', 'u', 'l', 'l']
  | .bool true => ['t', 'r', 'u', 'e']
  | .bool false => ['f', 'a', 'l', 's', 'e']
  | .number value => writeNumeral value
  | .string text => writeString text
  | .array [] => ['[', ']']
  | .array (item :: items) => '[' :: write item ++ writeItems items ++ [']']
  | .object [] => ['\x7b', '\x7d']
  | .object ((name, value) :: members) =>
      '\x7b' :: writeString name ++ ':' :: write value ++ writeMembers members ++ ['\x7d']

/-- The items after the first. -/
def writeItems : List (Json Numeral) → List Char
  | [] => []
  | item :: items => ',' :: write item ++ writeItems items

/-- The members after the first. -/
def writeMembers : List (String × Json Numeral) → List Char
  | [] => []
  | (name, value) :: members =>
      ',' :: writeString name ++ ':' :: write value ++ writeMembers members

end

/-! ## Reading -/

def isBlank (c : Char) : Bool := c = ' ' || c = '\n' || c = '\t' || c = '\r'

def skipBlanks (text : List Char) : List Char := text.dropWhile isBlank

def hexValue (c : Char) : Option Nat :=
  if c.isDigit then some (c.toNat - 48)
  else if 97 ≤ c.toNat && c.toNat ≤ 102 then some (c.toNat - 87)
  else if 65 ≤ c.toNat && c.toNat ≤ 70 then some (c.toNat - 55)
  else none

/-- Four hexadecimal digits. -/
def readHex : List Char → Option (Nat × List Char)
  | a :: b :: c :: d :: rest => do
      let a ← hexValue a
      let b ← hexValue b
      let c ← hexValue c
      let d ← hexValue d
      some (4096 * a + 256 * b + 16 * c + d, rest)
  | _ => none

/-- The character of an escape by its code, from behind the `u`: a high surrogate takes the low
one that has to come after it. -/
def readCode (text : List Char) : Option (Char × List Char) := do
  let (code, rest) ← readHex text
  if 0xDC00 ≤ code && code ≤ 0xDFFF then none
  else if 0xD800 ≤ code && code ≤ 0xDBFF then
    match rest with
    | '\\' :: 'u' :: rest => do
        let (low, rest) ← readHex rest
        if 0xDC00 ≤ low && low ≤ 0xDFFF then
          some (Char.ofNat (0x10000 + 1024 * (code - 0xD800) + (low - 0xDC00)), rest)
        else none
    | _ => none
  else some (Char.ofNat code, rest)

/-- The character of an escape, from behind the backslash. -/
def readEscape : List Char → Option (Char × List Char)
  | '"' :: rest => some ('"', rest)
  | '\\' :: rest => some ('\\', rest)
  | '/' :: rest => some ('/', rest)
  | 'b' :: rest => some (Char.ofNat 8, rest)
  | 'f' :: rest => some (Char.ofNat 12, rest)
  | 'n' :: rest => some ('\n', rest)
  | 'r' :: rest => some ('\r', rest)
  | 't' :: rest => some ('\t', rest)
  | 'u' :: rest => readCode rest
  | _ => none

/-- The next character of a string, or its end. -/
def readChar : List Char → Option (Option Char × List Char)
  | [] => none
  | c :: rest =>
      if c = '"' then some (none, rest)
      else if c = '\\' then (readEscape rest).map fun (c, rest) => (some c, rest)
      else if c.toNat < 32 then none
      else some (some c, rest)

/-- The characters of a string, to its end. -/
def readChars : Nat → List Char → Option (List Char × List Char)
  | 0, _ => none
  | fuel + 1, text =>
      match readChar text with
      | none => none
      | some (none, rest) => some ([], rest)
      | some (some c, rest) => (readChars fuel rest).map fun (chars, rest) => (c :: chars, rest)

/-- A string, from behind its opening quote. -/
def readString (text : List Char) : Option (String × List Char) :=
  (readChars text.length text).map fun (chars, rest) => (String.ofList chars, rest)

/-- What follows a mark, if it is there: digits. -/
def readFraction : List Char → Option (Bool × List Char)
  | '.' :: rest =>
      match rest.span Char.isDigit with
      | ([], _) => none
      | (_, rest) => some (true, rest)
  | rest => some (false, rest)

def skipSign : List Char → List Char
  | '+' :: rest => rest
  | '-' :: rest => rest
  | rest => rest

def readExponent : List Char → Option (Bool × List Char)
  | c :: rest =>
      if c = 'e' || c = 'E' then
        match (skipSign rest).span Char.isDigit with
        | ([], _) => none
        | (_, rest) => some (true, rest)
      else some (false, c :: rest)
  | [] => some (false, [])

/-- The digits before a fraction: no zero in front of others. -/
def readDigits (text : List Char) : Option (List Char × List Char) :=
  match text.span Char.isDigit with
  | ([], _) => none
  | ('0' :: _ :: _, _) => none
  | (digits, rest) => some (digits, rest)

/-- A number without its sign. -/
def readMagnitude (text : List Char) : Option (Numeral × List Char) := do
  let (digits, rest) ← readDigits text
  let (fraction, rest) ← readFraction rest
  let (exponent, rest) ← readExponent rest
  some (if fraction || exponent then .other else .natural (Nat.ofDigitChars 10 digits 0), rest)

def readNumeral : List Char → Option (Numeral × List Char)
  | '-' :: rest => (readMagnitude rest).map fun (_, rest) => (.other, rest)
  | text => readMagnitude text

section Sequences

variable {T : Type} (read : List Char → Option (T × List Char)) (closing : Char)

/-- What follows an item: the end, or a comma and another item. -/
def readMore : Nat → List Char → Option (List T × List Char)
  | 0, _ => none
  | fuel + 1, text =>
      match skipBlanks text with
      | [] => none
      | c :: rest =>
          if c = closing then some ([], rest)
          else if c = ',' then
            match read rest with
            | none => none
            | some (item, rest) =>
                (readMore fuel rest).map fun (items, rest) => (item :: items, rest)
          else none

/-- Items, from behind what opens them. -/
def readSequence (text : List Char) : Option (List T × List Char) :=
  match skipBlanks text with
  | [] => none
  | c :: rest =>
      if c = closing then some ([], rest)
      else
        match read (c :: rest) with
        | none => none
        | some (item, rest) =>
            (readMore read closing rest.length rest).map fun (items, rest) => (item :: items, rest)

end Sequences

/-- A member of an object, given what reads its value. -/
def readMember (read : List Char → Option (Json Numeral × List Char)) (text : List Char) :
    Option ((String × Json Numeral) × List Char) :=
  match skipBlanks text with
  | '"' :: rest =>
      match readString rest with
      | none => none
      | some (name, rest) =>
          match skipBlanks rest with
          | ':' :: rest => (read rest).map fun (value, rest) => ((name, value), rest)
          | _ => none
  | _ => none

/-- A value whose arrays and objects are nested no deeper than a bound. -/
def readValue : Nat → List Char → Option (Json Numeral × List Char)
  | depth, text =>
      match skipBlanks text with
      | 'n' :: 'u' :: 'l' :: 'l' :: rest => some (.null, rest)
      | 't' :: 'r' :: 'u' :: 'e' :: rest => some (.bool true, rest)
      | 'f' :: 'a' :: 'l' :: 's' :: 'e' :: rest => some (.bool false, rest)
      | '"' :: rest => (readString rest).map fun (text, rest) => (.string text, rest)
      | '[' :: rest =>
          match depth with
          | 0 => none
          | depth + 1 =>
              (readSequence (readValue depth) ']' rest).map fun (items, rest) =>
                (.array items, rest)
      | '\x7b' :: rest =>
          match depth with
          | 0 => none
          | depth + 1 =>
              (readSequence (readMember (readValue depth)) '\x7d' rest).map fun (members, rest) =>
                (.object members, rest)
      | text => (readNumeral text).map fun (value, rest) => (.number value, rest)

/-- A whole text. -/
def read (depth : Nat) (text : List Char) : Option (Json Numeral) :=
  match readValue depth text with
  | none => none
  | some (json, rest) => if (skipBlanks rest).isEmpty then some json else none

/-! ## What is written is read back -/

theorem skipBlanks_cons {c : Char} (h : isBlank c = false) (rest : List Char) :
    skipBlanks (c :: rest) = c :: rest := by
  rw [skipBlanks, List.dropWhile_cons, if_neg (by simp [h])]

theorem hexValue_digitChar : ∀ digit < 16, hexValue (Nat.digitChar digit) = some digit := by
  decide

/-- A character is read back from its escape. -/
theorem readChar_escape (c : Char) (rest : List Char) :
    readChar (escape c ++ rest) = some (some c, rest) := by
  have hback : Char.ofNat c.toNat = c := Char.ofNat_toNat c
  unfold escape
  split
  all_goals
    rename_i h
    try
      rw [h] at hback
      rw [← hback]
      rfl
  split
  · rename_i hlt
    have hhigh := hexValue_digitChar (c.toNat / 16) (by omega)
    have hlow := hexValue_digitChar (c.toNat % 16) (by omega)
    have hcode : 4096 * 0 + 256 * 0 + 16 * (c.toNat / 16) + c.toNat % 16 = c.toNat := by omega
    have hread : readCode ('0' :: '0' :: Nat.digitChar (c.toNat / 16) ::
        Nat.digitChar (c.toNat % 16) :: rest) = some (c, rest) := by
      have hzero : hexValue '0' = some 0 := by decide
      have hhex : readHex ('0' :: '0' :: Nat.digitChar (c.toNat / 16) ::
          Nat.digitChar (c.toNat % 16) :: rest) = some (c.toNat, rest) := by
        rw [readHex, hzero, hhigh, hlow]
        simp only [Option.bind_eq_bind, Option.bind_some, hcode]
      have hnotLow : ¬ (0xDC00 ≤ c.toNat) := by omega
      have hnotHigh : ¬ (0xD800 ≤ c.toNat) := by omega
      rw [readCode, hhex]
      simp [hnotLow, hnotHigh, hback]
    show (readCode ('0' :: '0' :: Nat.digitChar (c.toNat / 16) ::
        Nat.digitChar (c.toNat % 16) :: rest)).map (fun (c, rest) => (some c, rest)) = _
    rw [hread]
    rfl
  · rename_i hquote hslash _ _ _ _ hge
    have hnotQuote : c ≠ '"' := by
      rintro rfl
      exact hquote rfl
    have hnotSlash : c ≠ '\\' := by
      rintro rfl
      exact hslash rfl
    rw [List.singleton_append, readChar, if_neg hnotQuote, if_neg hnotSlash, if_neg hge]

theorem length_escape_pos (c : Char) : 0 < (escape c).length := by
  unfold escape
  split
  all_goals try simp
  split <;> simp

theorem readChars_escaped {chars rest : List Char} {fuel : Nat}
    (h : chars.length < fuel) :
    readChars fuel (chars.flatMap escape ++ '"' :: rest) = some (chars, rest) := by
  induction chars generalizing fuel with
  | nil =>
      obtain ⟨fuel, rfl⟩ := Nat.exists_eq_succ_of_ne_zero (Nat.ne_of_gt h)
      rfl
  | cons c chars ih =>
      obtain ⟨fuel, rfl⟩ := Nat.exists_eq_succ_of_ne_zero (Nat.ne_of_gt (Nat.zero_lt_of_lt h))
      rw [List.length_cons] at h
      rw [List.flatMap_cons, List.append_assoc, readChars, readChar_escape]
      dsimp only
      rw [ih (Nat.lt_of_succ_lt_succ h)]
      rfl

theorem length_le_flatMap_escape (chars : List Char) :
    chars.length ≤ (chars.flatMap escape).length := by
  induction chars with
  | nil => simp
  | cons c chars ih =>
      have hpos := length_escape_pos c
      rw [List.flatMap_cons, List.length_append, List.length_cons]
      omega

/-- A string is read back from its escaped characters. -/
theorem readString_escaped (text : String) (rest : List Char) :
    readString (text.toList.flatMap escape ++ '"' :: rest) = some (text, rest) := by
  have hle := length_le_flatMap_escape text.toList
  have hfuel : text.toList.length < (text.toList.flatMap escape ++ '"' :: rest).length := by
    rw [List.length_append, List.length_cons]
    omega
  rw [readString, readChars_escaped hfuel, Option.map_some]
  dsimp only
  rw [String.ofList_toList]

/-- What may stand behind a value. -/
def Delimited (rest : List Char) : Prop :=
  ∀ c, rest.head? = some c → c = ',' ∨ c = ']' ∨ c = '\x7d'

theorem delimited_nil : Delimited [] := nofun

theorem delimited_cons {c : Char} (h : c = ',' ∨ c = ']' ∨ c = '\x7d') (rest : List Char) :
    Delimited (c :: rest) := by
  intro other hother
  cases hother
  exact h

theorem span_digits {digits rest : List Char} (h : ∀ c ∈ digits, c.isDigit = true)
    (hrest : Delimited rest) : (digits ++ rest).span Char.isDigit = (digits, rest) := by
  rw [List.span_eq_takeWhile_dropWhile, List.takeWhile_append_of_pos h,
    List.dropWhile_append_of_pos h]
  cases rest with
  | nil => simp
  | cons c rest =>
      have hc : c.isDigit = false := by
        rcases hrest c rfl with rfl | rfl | rfl <;> decide
      simp [hc]

/-- A number has no zero in front of other digits. -/
theorem toDigits_no_leading_zero (value : Nat) {second : Char} {digits : List Char} :
    Nat.toDigits 10 value ≠ '0' :: second :: digits := by
  induction value using Nat.strong_induction_on generalizing second digits with
  | _ value ih =>
      intro h
      by_cases hlt : value < 10
      · rw [Nat.toDigits_of_lt_base hlt] at h
        exact absurd (congrArg List.length h) (by simp)
      · have hge : 10 ≤ value := by omega
        rw [Nat.toDigits_of_base_le (by decide) hge] at h
        rcases hhigh : Nat.toDigits 10 (value / 10) with _ | ⟨first, others⟩
        · exact Nat.toDigits_ne_nil hhigh
        · rw [hhigh, List.cons_append] at h
          obtain ⟨rfl, hothers⟩ := List.cons.inj h
          cases others with
          | cons other others => exact ih (value / 10) (by omega) hhigh
          | nil =>
              -- A single digit zero in front stands for nothing.
              have hzero : value / 10 = 0 := by
                have hback := @Nat.ofDigitChars_ten_toDigits (value / 10)
                rw [hhigh] at hback
                exact hback.symm
              omega

theorem readNumeral_write (value : Numeral) {rest : List Char} (hrest : Delimited rest) :
    readNumeral (writeNumeral value ++ rest) = some (value, rest) := by
  have hfraction : readFraction rest = some (false, rest) := by
    cases rest with
    | nil => rfl
    | cons c rest =>
        rcases hrest c rfl with rfl | rfl | rfl <;> rfl
  have hexponent : readExponent rest = some (false, rest) := by
    cases rest with
    | nil => rfl
    | cons c rest =>
        rcases hrest c rfl with rfl | rfl | rfl <;> rfl
  have hmagnitude : ∀ value, readMagnitude (Nat.toDigits 10 value ++ rest) =
      some (.natural value, rest) := by
    intro value
    have hdigits : readDigits (Nat.toDigits 10 value ++ rest) =
        some (Nat.toDigits 10 value, rest) := by
      rw [readDigits, span_digits (fun c => Nat.isDigit_of_mem_toDigits (by decide) (by decide))
        hrest]
      split
      · rename_i hnil
        exact absurd (Prod.mk.inj hnil).1 Nat.toDigits_ne_nil
      · rename_i hzero
        exact absurd (Prod.mk.inj hzero).1 (toDigits_no_leading_zero value)
      · rename_i heq
        cases heq
        rfl
    rw [readMagnitude, hdigits]
    simp [hfraction, hexponent]
  cases value with
  | natural value =>
      rw [writeNumeral]
      rcases hdigits : Nat.toDigits 10 value with _ | ⟨first, digits⟩
      · exact absurd hdigits Nat.toDigits_ne_nil
      · have hfirst : first.isDigit = true := by
          apply Nat.isDigit_of_mem_toDigits (b := 10) (n := value) (by decide) (by decide)
          rw [hdigits]
          exact List.mem_cons_self
        have hsign : first ≠ '-' := by
          rintro rfl
          cases hfirst
        rw [← hmagnitude value, hdigits, List.cons_append, readNumeral]
        intro other hother
        exact hsign (List.cons.inj hother).1
  | other =>
      have hzero := hmagnitude 0
      rw [Nat.toDigits_zero, List.singleton_append] at hzero
      show (readMagnitude ('0' :: rest)).map (fun (_, rest) => (Numeral.other, rest)) = _
      rw [hzero]
      rfl

section Sequences

variable {T : Type} {read : List Char → Option (T × List Char)} {writeOne : T → List Char}
  {closing : Char}

/-- Items behind the first are read back, each up to what delimits it. -/
theorem readMore_write (hclosing : closing = ']' ∨ closing = '\x7d') {items : List T}
    (hread : ∀ item ∈ items, ∀ rest, Delimited rest →
      read (writeOne item ++ rest) = some (item, rest)) {fuel : Nat}
    (hfuel : items.length < fuel) (rest : List Char) :
    readMore read closing fuel
      (items.flatMap (fun item => ',' :: writeOne item) ++ closing :: rest) =
        some (items, rest) := by
  have hblank : isBlank closing = false := by rcases hclosing with rfl | rfl <;> rfl
  have hcomma : (',' : Char) ≠ closing := by rcases hclosing with rfl | rfl <;> decide
  induction items generalizing fuel with
  | nil =>
      obtain ⟨fuel, rfl⟩ := Nat.exists_eq_succ_of_ne_zero (Nat.ne_of_gt hfuel)
      rw [List.flatMap_nil, List.nil_append, readMore, skipBlanks_cons hblank]
      exact if_pos rfl
  | cons item items ih =>
      obtain ⟨fuel, rfl⟩ := Nat.exists_eq_succ_of_ne_zero (Nat.ne_of_gt (Nat.zero_lt_of_lt hfuel))
      rw [List.length_cons] at hfuel
      have hnext : Delimited
          (items.flatMap (fun item => ',' :: writeOne item) ++ closing :: rest) := by
        cases items with
        | nil => exact delimited_cons (Or.inr hclosing) rest
        | cons other items => exact delimited_cons (Or.inl rfl) _
      rw [List.flatMap_cons, List.append_assoc, List.cons_append, readMore,
        skipBlanks_cons (by rfl)]
      dsimp only
      rw [if_neg hcomma, if_pos rfl, hread item List.mem_cons_self _ hnext]
      dsimp only
      rw [ih (fun other hother => hread other (List.mem_cons_of_mem _ hother))
        (Nat.lt_of_succ_lt_succ hfuel)]
      rfl

/-- Items are read back from behind what opens them. -/
theorem readSequence_write (hclosing : closing = ']' ∨ closing = '\x7d') {first : T}
    {items : List T} (hread : ∀ item ∈ first :: items, ∀ rest, Delimited rest →
      read (writeOne item ++ rest) = some (item, rest)) {start : Char} {text : List Char}
    (hfirst : writeOne first = start :: text) (hblank : isBlank start = false)
    (hstart : start ≠ closing) (rest : List Char) :
    readSequence read closing
      (writeOne first ++ items.flatMap (fun item => ',' :: writeOne item) ++ closing :: rest) =
        some (first :: items, rest) := by
  have hnext : Delimited
      (items.flatMap (fun item => ',' :: writeOne item) ++ closing :: rest) := by
    cases items with
    | nil => exact delimited_cons (Or.inr hclosing) rest
    | cons other items => exact delimited_cons (Or.inl rfl) _
  have hone := hread first List.mem_cons_self _ hnext
  have hlength : items.length ≤
      (items.flatMap (fun item => ',' :: writeOne item)).length := by
    clear hread hnext hone
    induction items with
    | nil => simp
    | cons other items ih =>
        rw [List.flatMap_cons, List.length_append, List.length_cons, List.length_cons]
        omega
  have hfuel : items.length <
      (items.flatMap (fun item => ',' :: writeOne item) ++ closing :: rest).length := by
    rw [List.length_append, List.length_cons]
    omega
  rw [List.append_assoc]
  rw [hfirst, List.cons_append] at hone ⊢
  rw [readSequence, skipBlanks_cons hblank]
  dsimp only
  rw [if_neg hstart, hone]
  dsimp only
  rw [readMore_write hclosing (fun other hother => hread other (List.mem_cons_of_mem _ hother))
    hfuel]
  rfl

end Sequences

theorem writeItems_eq (items : List (Json Numeral)) :
    writeItems items = items.flatMap fun item => ',' :: write item := by
  induction items with
  | nil => rfl
  | cons item items ih => rw [writeItems, ih, List.flatMap_cons]

/-- One member. -/
def writeMember (member : String × Json Numeral) : List Char :=
  writeString member.1 ++ ':' :: write member.2

theorem writeMembers_eq (members : List (String × Json Numeral)) :
    writeMembers members = members.flatMap fun member => ',' :: writeMember member := by
  induction members with
  | nil => rfl
  | cons member members ih =>
      obtain ⟨name, value⟩ := member
      rw [writeMembers, ih, List.flatMap_cons, writeMember]
      simp

/-- What a value starts with. -/
def IsStart (c : Char) : Prop :=
  isBlank c = false ∧ c ≠ ']' ∧ c ≠ '\x7d'

theorem isStart_of_isDigit {c : Char} (h : c.isDigit = true) : IsStart c := by
  refine ⟨?_, ?_, ?_⟩
  · rw [Bool.eq_false_iff]
    intro hblank
    simp only [isBlank, Bool.or_eq_true, decide_eq_true_eq] at hblank
    rcases hblank with ((rfl | rfl) | rfl) | rfl <;> cases h
  · rintro rfl
    cases h
  · rintro rfl
    cases h

theorem writeNumeral_start (value : Numeral) : ∃ c text, writeNumeral value = c :: text ∧
    (c.isDigit = true ∨ c = '-') := by
  cases value with
  | natural value =>
      rcases hdigits : Nat.toDigits 10 value with _ | ⟨c, digits⟩
      · exact absurd hdigits Nat.toDigits_ne_nil
      · refine ⟨c, digits, hdigits, Or.inl ?_⟩
        apply Nat.isDigit_of_mem_toDigits (b := 10) (n := value) (by decide) (by decide)
        rw [hdigits]
        exact List.mem_cons_self
  | other => exact ⟨'-', ['0'], rfl, Or.inr rfl⟩

theorem write_start (json : Json Numeral) : ∃ c text, write json = c :: text ∧ IsStart c := by
  cases json with
  | null => exact ⟨_, _, rfl, by decide, by decide, by decide⟩
  | bool value => cases value <;> exact ⟨_, _, rfl, by decide, by decide, by decide⟩
  | number value =>
      obtain ⟨c, text, hwrite, hc⟩ := writeNumeral_start value
      refine ⟨c, text, by rw [write, hwrite], ?_⟩
      rcases hc with hdigit | rfl
      · exact isStart_of_isDigit hdigit
      · exact ⟨by decide, by decide, by decide⟩
  | string text => exact ⟨_, _, by rw [write, writeString]; rfl, by decide, by decide, by decide⟩
  | array items =>
      cases items with
      | nil => exact ⟨_, _, by rw [write], by decide, by decide, by decide⟩
      | cons item items =>
          exact ⟨_, _, by rw [write]; rfl, by decide, by decide, by decide⟩
  | object members =>
      cases members with
      | nil => exact ⟨_, _, by rw [write], by decide, by decide, by decide⟩
      | cons member members =>
          obtain ⟨name, value⟩ := member
          exact ⟨_, _, by rw [write]; rfl, by decide, by decide, by decide⟩

/-- A number is read where a value does not start as another kind does. -/
theorem readValue_number {depth : Nat} {c : Char} (h : c.isDigit = true ∨ c = '-')
    (text : List Char) : readValue depth (c :: text) =
      (readNumeral (c :: text)).map fun (value, rest) => (.number value, rest) := by
  have hblank : isBlank c = false := by
    rcases h with hdigit | rfl
    · exact (isStart_of_isDigit hdigit).1
    · rfl
  have hne : ∀ other : Char, other.isDigit = false → other ≠ '-' → c ≠ other := by
    rintro other hdigit hsign rfl
    rcases h with h | h
    · rw [hdigit] at h
      cases h
    · exact hsign h
  unfold readValue
  rw [skipBlanks_cons hblank]
  split
  · rename_i heq
    exact absurd (List.cons.inj heq).1 (hne _ (by decide) (by decide))
  · rename_i heq
    exact absurd (List.cons.inj heq).1 (hne _ (by decide) (by decide))
  · rename_i heq
    exact absurd (List.cons.inj heq).1 (hne _ (by decide) (by decide))
  · rename_i heq
    exact absurd (List.cons.inj heq).1 (hne _ (by decide) (by decide))
  · rename_i heq
    exact absurd (List.cons.inj heq).1 (hne _ (by decide) (by decide))
  · rename_i heq
    exact absurd (List.cons.inj heq).1 (hne _ (by decide) (by decide))
  · rfl

theorem readValue_string (depth : Nat) (text : List Char) : readValue depth ('"' :: text) =
    (readString text).map fun (text, rest) => (.string text, rest) := by
  unfold readValue
  rfl

theorem readValue_array (depth : Nat) (text : List Char) : readValue (depth + 1) ('[' :: text) =
    (readSequence (readValue depth) ']' text).map fun (items, rest) => (.array items, rest) := by
  rfl

theorem readValue_object (depth : Nat) (text : List Char) :
    readValue (depth + 1) ('\x7b' :: text) =
      (readSequence (readMember (readValue depth)) '\x7d' text).map fun (members, rest) =>
        (.object members, rest) := by
  rfl

theorem readMember_write {read : List Char → Option (Json Numeral × List Char)}
    {member : String × Json Numeral} {rest : List Char}
    (h : read (write member.2 ++ rest) = some (member.2, rest)) :
    readMember read (writeMember member ++ rest) = some (member, rest) := by
  obtain ⟨name, value⟩ := member
  dsimp only at h
  have htext : writeMember (name, value) ++ rest =
      '"' :: (name.toList.flatMap escape ++ '"' :: ':' :: (write value ++ rest)) := by
    simp [writeMember, writeString]
  rw [htext]
  unfold readMember
  rw [skipBlanks_cons (by rfl)]
  dsimp only
  split
  · rename_i rest' heq
    cases heq
    rw [readString_escaped]
    dsimp only
    rw [skipBlanks_cons (by rfl)]
    show (read (write value ++ rest)).map (fun found => ((name, found.1), found.2)) = _
    rw [h]
    rfl
  · rename_i hnot
    exact absurd rfl (hnot _)

/-- A value is read back from what it is written as, up to what delimits it. -/
theorem readValue_write {json : Json Numeral} {depth : Nat} (hdepth : json.depth ≤ depth)
    {rest : List Char} (hrest : Delimited rest) :
    readValue depth (write json ++ rest) = some (json, rest) := by
  induction json generalizing depth rest with
  | null =>
      unfold readValue
      rfl
  | bool value =>
      unfold readValue
      cases value <;> rfl
  | number value =>
      obtain ⟨c, text, hwrite, hc⟩ := writeNumeral_start value
      have hread := readNumeral_write value hrest
      rw [write]
      rw [hwrite, List.cons_append] at hread ⊢
      rw [readValue_number hc, hread]
      rfl
  | string text =>
      have hshape : write (.string text) ++ rest =
          '"' :: (text.toList.flatMap escape ++ '"' :: rest) := by
        rw [write, writeString]
        simp
      rw [hshape, readValue_string, readString_escaped]
      rfl
  -- A step in costs one of the depth, and the value has as much as its members are deep.
  | array items ih =>
      rw [Json.depth] at hdepth
      obtain ⟨depth, rfl⟩ := Nat.exists_eq_succ_of_ne_zero
        (Nat.ne_of_gt (Nat.lt_of_lt_of_le (Nat.succ_pos _) hdepth))
      have hitems : ∀ item ∈ items, ∀ rest, Delimited rest →
          readValue depth (write item ++ rest) = some (item, rest) := by
        intro item hitem rest hrest
        have hle := Json.depth_le_depthItems hitem
        exact ih item hitem (by omega) hrest
      cases items with
      | nil => rfl
      | cons item items =>
          obtain ⟨c, text, hwrite, hblank, hbracket, -⟩ := write_start item
          have hread := readSequence_write (Or.inl rfl) hitems hwrite hblank hbracket rest
          have hshape : write (.array (item :: items)) ++ rest =
              '[' :: (write item ++ items.flatMap (fun item => ',' :: write item) ++
                ']' :: rest) := by
            rw [write, writeItems_eq]
            simp
          rw [hshape, readValue_array, hread]
          rfl
  | object members ih =>
      rw [Json.depth] at hdepth
      obtain ⟨depth, rfl⟩ := Nat.exists_eq_succ_of_ne_zero
        (Nat.ne_of_gt (Nat.lt_of_lt_of_le (Nat.succ_pos _) hdepth))
      have hmembers : ∀ member ∈ members, ∀ rest, Delimited rest →
          readMember (readValue depth) (writeMember member ++ rest) = some (member, rest) := by
        intro member hmember rest hrest
        have hle := Json.depth_le_depthMembers hmember
        exact readMember_write (ih member hmember (by omega) hrest)
      cases members with
      | nil => rfl
      | cons member members =>
          obtain ⟨name, value⟩ := member
          have hstart : writeMember (name, value) =
              '"' :: (name.toList.flatMap escape ++ ['"'] ++ ':' :: write value) := rfl
          have hread := readSequence_write (Or.inr rfl) hmembers hstart (by rfl) (by decide) rest
          have hshape : write (.object ((name, value) :: members)) ++ rest =
              '\x7b' :: (writeMember (name, value) ++
                members.flatMap (fun member => ',' :: writeMember member) ++
                  '\x7d' :: rest) := by
            rw [write, writeMembers_eq, writeMember]
            simp
          rw [hshape, readValue_object, hread]
          rfl

/-- A text is read back from what it is written as. -/
theorem read_write {json : Json Numeral} {depth : Nat} (hdepth : json.depth ≤ depth) :
    read depth (write json) = some json := by
  have hread := readValue_write hdepth delimited_nil
  rw [List.append_nil] at hread
  rw [read, hread]
  rfl

/-- Two texts that are written alike are one. -/
theorem write_injective : Function.Injective write := by
  intro first second h
  have hfirst := read_write (le_max_left first.depth second.depth)
  rw [h, read_write (le_max_right first.depth second.depth)] at hfirst
  exact (Option.some.inj hfirst).symm

end JsonText
end Library
end SaasFabric
