import SaasFabric.Core.Text
import SaasFabric.Library.Words

/-!
# Text that may be shown

`fabric-platform-management`'s `diagnostic.rs` and `diagnostic/redaction.rs`: what looks like a
credential is taken out of a message, word by word, and what is left is cut to a length.
-/

namespace SaasFabric
namespace Platform
namespace Diagnostic

open Library (words)

/-- A run of characters between whitespace. -/
abbrev Word := List Char

/-- `MAX`. -/
def MAX : Nat := 200

/-- `CREDENTIAL_PREFIXES`. -/
def CREDENTIAL_PREFIXES : List Word :=
  ["ghp_", "gho_", "ghu_", "ghs_", "ghr_", "github_pat_", "hvs.", "hvb."].map String.toList

/-- What a PEM block opens with. -/
def BEGIN : Word := "-----BEGIN".toList

/-- What stands for what is taken out. -/
def marker : Word := "[redacted]".toList

/-- `char::to_lowercase`, as far as ASCII text can tell: of the characters that are not ASCII only
the Kelvin sign becomes one that is, and by itself. -/
def toLowercase (c : Char) : Char := if c = '\u212A' then 'k' else c.toLower

/-- What names a credential. -/
def CREDENTIAL_NAMES : List Word :=
  ["bearer", "token", "password", "secret", "authorization:", "authorization"].map String.toList

/-- `introduces_a_credential`. -/
def introducesACredential (word : Word) : Bool :=
  let lowered := word.map toLowercase
  CREDENTIAL_NAMES.any fun name => lowered.rdropWhile (fun c => c == ':' || c == '=') == name

/-- Whether a word carries a known credential. -/
def carriesAPrefix (word : Word) : Bool :=
  CREDENTIAL_PREFIXES.any fun start => Text.containsSlice start word

/-- Whether a word is a URL with a query. -/
def isQueried (word : Word) : Bool :=
  word.contains '?' &&
    ("http://".toList.isPrefixOf word || "https://".toList.isPrefixOf word)

/-- Whether a word is a credential's name and its value. -/
def isAssigned (word : Word) : Bool :=
  word.contains '=' && introducesACredential (word.takeWhile (· != '='))

/-- `redact_word`. -/
def redactWord (word : Word) : Word :=
  if carriesAPrefix word then marker
  else if isQueried word then word.takeWhile (· != '?') ++ '?' :: marker
  else if isAssigned word then word.takeWhile (· != '=') ++ '=' :: marker
  else word

/-- The loop of `redact`: whether the word before named a credential decides the next one. -/
def redactWords : Bool → List Word → List Word
  | _, [] => []
  | named, word :: rest =>
      (if named then marker else redactWord word) :: redactWords (introducesACredential word) rest

/-- What comes before the first place of a pattern, if it has one. -/
def beforeSlice (pattern : List Char) : List Char → Option (List Char)
  | [] => if pattern.isEmpty then some [] else none
  | c :: rest =>
      if pattern.isPrefixOf (c :: rest) then some []
      else (beforeSlice pattern rest).map (c :: ·)

/-- `redact`. -/
def redact (text : List Char) : List Char :=
  match beforeSlice BEGIN text with
  | some kept => kept ++ marker
  | none => [' '].intercalate (redactWords false (words isWhitespace text))

/-- The first characters of a text, and an ellipsis where there are more. -/
def cap (text : List Char) : List Char :=
  if text.length ≤ MAX then text else text.take MAX ++ ['…']

/-- `SafeDiagnostic::sanitise`, on slices. -/
def sanitised (text : List Char) : List Char := cap (redact text)

/-- `SafeDiagnostic::sanitise`. -/
def sanitise (text : String) : String := String.ofList (sanitised text.toList)

example : sanitise "moving the branch failed: Authorization: Bearer ghs_16C7" =
    "moving the branch failed: Authorization: [redacted] [redacted]" := by decide +kernel

example : sanitise "read: https://ghcr.io/v2/a?token=abc&sig=dead" =
    "read: https://ghcr.io/v2/a?[redacted]" := by decide +kernel

/-! ## Where a word is cut -/

/-- How much of a word is kept before the marker, where there is one. -/
def markAt (named : Bool) (word : Word) : Option Nat :=
  if named || carriesAPrefix word then some 0
  else if isQueried word then some ((word.takeWhile (· != '?')).length + 1)
  else if isAssigned word then some ((word.takeWhile (· != '=')).length + 1)
  else none

/-- What is shown of a word. -/
def shown (named : Bool) (word : Word) : Word :=
  match markAt named word with
  | some kept => word.take kept ++ marker
  | none => word

theorem take_takeWhile {separator : Char} {word : Word} (h : separator ∈ word) :
    word.take ((word.takeWhile (· != separator)).length + 1) =
      word.takeWhile (· != separator) ++ [separator] := by
  have hsplit : word.takeWhile (· != separator) ++ word.dropWhile (· != separator) = word :=
    List.takeWhile_append_dropWhile
  obtain ⟨c, rest, hrest⟩ : ∃ c rest, word.dropWhile (· != separator) = c :: rest := by
    refine List.exists_cons_of_ne_nil fun hnil => ?_
    have hall := List.dropWhile_eq_nil_iff.mp hnil separator h
    simp at hall
  have hc : c = separator := by
    have hhead := List.head?_dropWhile_not (· != separator) word
    rw [hrest] at hhead
    simpa using hhead
  rw [hrest, hc, ← List.singleton_append, ← List.append_assoc] at hsplit
  have hlength : (word.takeWhile (· != separator)).length + 1 =
      (word.takeWhile (· != separator) ++ [separator]).length := by simp
  rw [hlength]
  exact (List.prefix_iff_eq_take.mp ⟨rest, hsplit⟩).symm

theorem shown_eq (named : Bool) (word : Word) :
    (if named then marker else redactWord word) = shown named word := by
  unfold shown markAt redactWord
  cases named with
  | true => rfl
  | false =>
      simp only [Bool.false_or, Bool.false_eq_true, if_false]
      split
      · rfl
      · split
        · next hqueried =>
            have hmem : '?' ∈ word := by
              unfold isQueried at hqueried
              rw [Bool.and_eq_true, List.contains_iff_mem] at hqueried
              exact hqueried.1
            show _ = word.take _ ++ marker
            rw [take_takeWhile hmem, List.append_assoc]
            rfl
        · split
          · next hassigned =>
              have hmem : '=' ∈ word := by
                unfold isAssigned at hassigned
                rw [Bool.and_eq_true, List.contains_iff_mem] at hassigned
                exact hassigned.1
              show _ = word.take _ ++ marker
              rw [take_takeWhile hmem, List.append_assoc]
              rfl
          · rfl

end Diagnostic
end Platform
end SaasFabric
