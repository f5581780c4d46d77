import SaasFabric.Library.Collect
import SaasFabric.Core.Text

/-!
# What a registry asks for

`fabric-registry`'s `client/challenge.rs` and `client/challenge/cursor.rs`: the challenges of a
`WWW-Authenticate` header.  A header that is not text, which is visible ASCII, or that does not
parse offers none.
-/

namespace SaasFabric
namespace Registry

open Library

/-- `Scheme`. -/
inductive Scheme where
  | bearer
  | basic
  | other (name : String)
deriving DecidableEq

/-- `Challenge`. -/
structure Challenge where
  scheme : Scheme
  parameters : BTreeMap String String

/-- `Challenge::parameter`. -/
def Challenge.parameter (challenge : Challenge) (name : String) : Option String :=
  challenge.parameters[name]?

/-! ## The cursor: what is left of a header -/

namespace Cursor

/-- `is_tchar`. -/
def isTchar (c : Char) : Bool := c.isAlphanum || "!#$%&'*+-.^_`|~".toList.contains c

/-- `Cursor::skip`. -/
def skip (set : List Char) (text : List Char) : List Char := text.dropWhile set.contains

/-- `Cursor::token`. -/
def token (text : List Char) : Option (List Char × List Char) :=
  if text.takeWhile isTchar = [] then none
  else some (text.takeWhile isTchar, text.dropWhile isTchar)

/-- `str::to_ascii_lowercase`. -/
def toAsciiLowercase (text : List Char) : String := String.ofList (text.map Char.toLower)

/-- `Cursor::parameter_name`: nothing is consumed where it is none. -/
def parameterName (text : List Char) : Option (String × List Char) :=
  match token (skip [',', ' ', '\t'] text) with
  | none => none
  | some (name, rest) =>
      match skip [' ', '\t'] rest with
      | '=' :: rest => some (toAsciiLowercase name, rest)
      | _ => none

/-- The loop of `Cursor::quoted`, from behind the opening quote. -/
def quotedFrom : List Char → Option (List Char × List Char)
  | '"' :: rest => some ([], rest)
  | '\\' :: escaped :: rest => (quotedFrom rest).map fun read => (escaped :: read.1, read.2)
  | '\\' :: [] => none
  | other :: rest => (quotedFrom rest).map fun read => (other :: read.1, read.2)
  | [] => none

/-- A parameter's value: a quoted string, or a token. -/
def parameterValue (text : List Char) : Option (List Char × List Char) :=
  match skip [' ', '\t'] text with
  | '"' :: rest => quotedFrom rest
  | rest => token rest

end Cursor

/-! ## Challenges -/

namespace Challenge

open Cursor

/-- The parameters that come next, on top of those read before, in at most so many steps. -/
def readParameters : Nat → BTreeMap String String → List Char →
    Option (BTreeMap String String × List Char)
  | 0, found, text => some (found, text)
  | steps + 1, found, text =>
      match parameterName text with
      | none => some (found, text)
      | some (name, rest) => do
          let (value, rest) ← parameterValue rest
          readParameters steps (found.insert name (String.ofList value)) rest

def schemeOf (name : String) : Scheme :=
  if name = "bearer" then .bearer else if name = "basic" then .basic else .other name

/-- The loop of `parse`, in at most so many steps. -/
def parseFrom : Nat → List Char → Option (List Challenge)
  | 0, _ => some []
  | steps + 1, text =>
      match skip [',', ' ', '\t'] text with
      | [] => some []
      | c :: rest => do
          let (scheme, rest) ← token (c :: rest)
          let (parameters, rest) ← readParameters rest.length ∅ rest
          let later ← parseFrom steps rest
          some ({ scheme := schemeOf (toAsciiLowercase scheme), parameters } :: later)

/-- `parse`.  Every challenge takes up a character, as does every parameter. -/
def parse (value : String) : Option (List Challenge) :=
  parseFrom (value.toList.length + 1) value.toList

end Challenge

/-- `challenges`: of the values of `WWW-Authenticate`, each of which is `none` where it is not
text. -/
def challenges (headers : List (Option String)) : List Challenge :=
  headers.flatMap fun value => (value.bind Challenge.parse).getD []

/-! ## The steps suffice -/

namespace Challenge

open Cursor

theorem length_token {text name rest : List Char} (h : token text = some (name, rest)) :
    rest.length < text.length := by
  unfold token at h
  split at h
  · cases h
  · rename_i hsome
    cases h
    have hsplit := congrArg List.length (List.takeWhile_append_dropWhile (p := isTchar) (l := text))
    have hpos := List.length_pos_iff.mpr hsome
    rw [List.length_append] at hsplit
    omega

theorem length_skip (set text : List Char) : (skip set text).length ≤ text.length :=
  (List.dropWhile_sublist _).length_le

theorem length_parameterName {text : List Char} {name : String} {rest : List Char}
    (h : parameterName text = some (name, rest)) : rest.length < text.length := by
  unfold parameterName at h
  split at h
  · cases h
  · rename_i found after htoken
    have hafter := length_token htoken
    have hskipped := length_skip [',', ' ', '\t'] text
    have hspace := length_skip [' ', '\t'] after
    split at h
    · rename_i heq
      cases h
      rw [heq, List.length_cons] at hspace
      omega
    · cases h

theorem length_quotedFrom {text value rest : List Char} (h : quotedFrom text = some (value, rest)) :
    rest.length ≤ text.length := by
  induction text using quotedFrom.induct generalizing value rest with
  | case1 after =>
      cases h
      simp
  | case2 escaped after ih =>
      rw [quotedFrom] at h
      obtain ⟨read, hread, hpair⟩ := Option.map_eq_some_iff.mp h
      cases hpair
      have hle := ih hread
      simp only [List.length_cons]
      omega
  | case3 => cases h
  | case4 other after hquote hescape hend ih =>
      rw [quotedFrom] at h
      · obtain ⟨read, hread, hpair⟩ := Option.map_eq_some_iff.mp h
        cases hpair
        have hle := ih hread
        simp only [List.length_cons]
        omega
      all_goals assumption
  | case5 => cases h

theorem length_parameterValue {text value rest : List Char}
    (h : parameterValue text = some (value, rest)) : rest.length ≤ text.length := by
  have hspace := length_skip [' ', '\t'] text
  unfold parameterValue at h
  split at h
  · rename_i after heq
    have hle := length_quotedFrom h
    rw [heq, List.length_cons] at hspace
    omega
  · have hlt := length_token h
    omega

/-- The parameters are read to their end: those that could come next are none. -/
theorem readParameters_complete {steps : Nat} {found : BTreeMap String String} {text : List Char}
    (h : text.length ≤ steps) {result : BTreeMap String String} {rest : List Char}
    (hread : readParameters steps found text = some (result, rest)) :
    parameterName rest = none ∧ rest.length ≤ text.length := by
  induction steps generalizing found text with
  | zero =>
      cases hread
      rw [List.length_eq_zero_iff.mp (Nat.le_zero.mp h)]
      exact ⟨rfl, le_rfl⟩
  | succ steps ih =>
      unfold readParameters at hread
      split at hread
      · rename_i hnone
        cases hread
        exact ⟨hnone, le_rfl⟩
      · rename_i name after hname
        obtain ⟨⟨value, later⟩, hvalue, hmore⟩ := Option.bind_eq_some_iff.mp hread
        have hlt := length_parameterName hname
        have hle := length_parameterValue hvalue
        have hend := ih (by omega) hmore
        exact ⟨hend.1, by omega⟩

/-- More steps than there are characters change nothing. -/
theorem parseFrom_steps {steps : Nat} {text : List Char} (h : text.length < steps) :
    parseFrom steps text = parseFrom (text.length + 1) text := by
  suffices hsame : ∀ bound steps steps', ∀ text : List Char, text.length ≤ bound →
      text.length < steps → text.length < steps' → parseFrom steps text = parseFrom steps' text from
    hsame _ _ _ text le_rfl h (Nat.lt_succ_self _)
  intro bound
  induction bound with
  | zero =>
      intro steps steps' text hbound hsteps hsteps'
      rw [List.length_eq_zero_iff.mp (Nat.le_zero.mp hbound)]
      cases steps <;> cases steps' <;> rfl
  | succ bound ih =>
      intro steps steps' text hbound hsteps hsteps'
      obtain ⟨steps, rfl⟩ : ∃ before, steps = before + 1 := ⟨steps - 1, by omega⟩
      obtain ⟨steps', rfl⟩ : ∃ before, steps' = before + 1 := ⟨steps' - 1, by omega⟩
      have hskip := length_skip [',', ' ', '\t'] text
      unfold parseFrom
      split
      · rfl
      · rename_i c rest heq
        rw [heq] at hskip
        cases htoken : token (c :: rest) with
        | none => rfl
        | some read =>
            have hlt := length_token htoken
            dsimp only [Option.bind_eq_bind, Option.bind_some]
            cases hparameters : readParameters read.2.length ∅ read.2 with
            | none => rfl
            | some found =>
                have hle := (readParameters_complete le_rfl hparameters).2
                dsimp only [Option.bind_some]
                rw [ih steps steps' found.2 (by omega) (by omega) (by omega)]

end Challenge

end Registry
end SaasFabric
