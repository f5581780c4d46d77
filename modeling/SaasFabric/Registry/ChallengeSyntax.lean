import SaasFabric.Registry.Challenge

/-!
# The grammar of a challenge

A `WWW-Authenticate` header is a list of challenges, written with gaps, blanks and escapes that
say nothing.  A header is read here as it was written, and what is read of its text is put
against it both ways.
-/

namespace SaasFabric
namespace Registry

open Library Cursor

/-! ## A header as it is written -/

/-- A character of a quoted string, by itself or escaped. -/
inductive Piece where
  | plain (c : Char)
  | escaped (c : Char)
deriving DecidableEq

/-- A character as it is written. -/
def Piece.text : Piece → List Char
  | .plain c => [c]
  | .escaped c => ['\\', c]

/-- The character that is meant. -/
def Piece.content : Piece → Char
  | .plain c => c
  | .escaped c => c

/-- A quote and a backslash are only ever escaped. -/
def Piece.WellFormed : Piece → Prop
  | .plain c => c ≠ '"' ∧ c ≠ '\\'
  | .escaped _ => True

instance (piece : Piece) : Decidable piece.WellFormed :=
  match piece with
  | .plain c => inferInstanceAs (Decidable (c ≠ '"' ∧ c ≠ '\\'))
  | .escaped _ => isTrue trivial

/-- One or more characters of a token. -/
def IsToken (text : List Char) : Prop := text ≠ [] ∧ ∀ c ∈ text, isTchar c = true

instance (text : List Char) : Decidable (IsToken text) :=
  inferInstanceAs (Decidable (_ ∧ _))

/-- Blanks. -/
def IsBlank (text : List Char) : Prop := ∀ c ∈ text, c ∈ [' ', '\t']

instance (text : List Char) : Decidable (IsBlank text) :=
  inferInstanceAs (Decidable (∀ c ∈ text, c ∈ [' ', '\t']))

/-- Blanks and commas: what separates two elements, empty elements with them. -/
def IsGap (text : List Char) : Prop := ∀ c ∈ text, c ∈ [',', ' ', '\t']

instance (text : List Char) : Decidable (IsGap text) :=
  inferInstanceAs (Decidable (∀ c ∈ text, c ∈ [',', ' ', '\t']))

/-- What follows does not go on with a token. -/
def Whole (rest : List Char) : Prop := ∀ c ∈ rest.head?, isTchar c = false

/-- A parameter's value, as a token or quoted. -/
inductive ValueSyntax where
  | token (text : List Char)
  | quoted (pieces : List Piece)
deriving DecidableEq

namespace ValueSyntax

/-- A value as it is written. -/
def text : ValueSyntax → List Char
  | .token text => text
  | .quoted pieces => '"' :: (pieces.flatMap Piece.text ++ ['"'])

/-- The value that is meant. -/
def content : ValueSyntax → List Char
  | .token text => text
  | .quoted pieces => pieces.map Piece.content

/-- A value is a token, or well-formed in its quotes. -/
def WellFormed : ValueSyntax → Prop
  | .token text => IsToken text
  | .quoted pieces => ∀ piece ∈ pieces, piece.WellFormed

/-- A token is a whole one beside what follows; quotes close by themselves. -/
def Ends (value : ValueSyntax) (rest : List Char) : Prop :=
  match value with
  | .token _ => Whole rest
  | .quoted _ => True

end ValueSyntax

/-- A parameter, with the gap before it and the blanks around its `=`. -/
structure ParameterSyntax where
  gap : List Char
  name : List Char
  before : List Char
  after : List Char
  value : ValueSyntax
deriving DecidableEq

namespace ParameterSyntax

/-- A parameter as it is written. -/
def text (parameter : ParameterSyntax) : List Char :=
  parameter.gap ++ (parameter.name ++ (parameter.before ++ '=' ::
    (parameter.after ++ parameter.value.text)))

/-- The name and the value that are meant. -/
def read (parameter : ParameterSyntax) : String × String :=
  (toAsciiLowercase parameter.name, String.ofList parameter.value.content)

/-- Each part of a parameter is what it should be. -/
structure WellFormed (parameter : ParameterSyntax) : Prop where
  gap : IsGap parameter.gap
  name : IsToken parameter.name
  before : IsBlank parameter.before
  after : IsBlank parameter.after
  value : parameter.value.WellFormed

end ParameterSyntax

/-- The text of some parameters. -/
def parametersText (parameters : List ParameterSyntax) : List Char :=
  parameters.flatMap ParameterSyntax.text

/-! ## The cursor, on what is written -/

section Cursor

theorem skip_append {set gap rest : List Char} (hgap : ∀ c ∈ gap, c ∈ set)
    (hrest : ∀ c ∈ rest.head?, c ∉ set) : skip set (gap ++ rest) = rest := by
  unfold skip
  rw [List.dropWhile_append_of_pos fun c hc => List.contains_iff_mem.mpr (hgap c hc)]
  cases rest with
  | nil => rfl
  | cons c rest =>
      refine List.dropWhile_cons_of_neg ?_
      rw [List.contains_iff_mem]
      exact hrest c rfl

theorem isTchar_iff_notMem {c : Char} (h : isTchar c = true) :
    c ∉ [',', ' ', '\t'] ∧ c ∉ [' ', '\t'] ∧ c ≠ '=' ∧ c ≠ '"' := by
  refine ⟨fun hmem => ?_, fun hmem => ?_, ?_, ?_⟩
  · simp only [List.mem_cons, List.not_mem_nil, or_false] at hmem
    rcases hmem with rfl | rfl | rfl <;> exact absurd h (by decide)
  · simp only [List.mem_cons, List.not_mem_nil, or_false] at hmem
    rcases hmem with rfl | rfl <;> exact absurd h (by decide)
  · rintro rfl
    exact absurd h (by decide)
  · rintro rfl
    exact absurd h (by decide)

theorem head_of_isToken {token rest : List Char} (h : IsToken token) :
    ∃ c, (token ++ rest).head? = some c ∧ isTchar c = true := by
  obtain ⟨hnonempty, hall⟩ := h
  cases token with
  | nil => exact absurd rfl hnonempty
  | cons c token => exact ⟨c, rfl, hall c List.mem_cons_self⟩

theorem token_append {name rest : List Char} (h : IsToken name) (hrest : Whole rest) :
    token (name ++ rest) = some (name, rest) := by
  obtain ⟨hnonempty, hall⟩ := h
  have htake : (name ++ rest).takeWhile isTchar = name := by
    rw [List.takeWhile_append_of_pos hall]
    cases rest with
    | nil => exact List.append_nil _
    | cons c rest =>
        rw [List.takeWhile_cons_of_neg (by rw [hrest c rfl]; exact Bool.false_ne_true)]
        exact List.append_nil _
  have hdrop : (name ++ rest).dropWhile isTchar = rest := by
    rw [List.dropWhile_append_of_pos hall]
    cases rest with
    | nil => rfl
    | cons c rest =>
        exact List.dropWhile_cons_of_neg (by rw [hrest c rfl]; exact Bool.false_ne_true)
  unfold token
  rw [htake, hdrop, if_neg hnonempty]

theorem token_eq_none {rest : List Char} (h : Whole rest) : token rest = none := by
  unfold token
  cases rest with
  | nil => rfl
  | cons c rest =>
      rw [List.takeWhile_cons_of_neg (by rw [h c rfl]; exact Bool.false_ne_true)]
      rfl

/-- A quoted string is read to the quote that closes it. -/
theorem quotedFrom_append {pieces : List Piece} (h : ∀ piece ∈ pieces, piece.WellFormed)
    (rest : List Char) : quotedFrom (pieces.flatMap Piece.text ++ '"' :: rest) =
      some (pieces.map Piece.content, rest) := by
  induction pieces with
  | nil => rfl
  | cons piece pieces ih =>
      have hrest := ih fun other hother => h other (List.mem_cons_of_mem _ hother)
      cases piece with
      | plain c =>
          obtain ⟨hquote, hescape⟩ := h (.plain c) List.mem_cons_self
          show quotedFrom (c :: (pieces.flatMap Piece.text ++ '"' :: rest)) = _
          rw [quotedFrom.eq_4 _ _ (fun heq => hquote heq) (fun _ _ heq _ => hescape heq)
            (fun heq _ => hescape heq), hrest]
          rfl
      | escaped c =>
          show quotedFrom ('\\' :: c :: (pieces.flatMap Piece.text ++ '"' :: rest)) = _
          rw [quotedFrom, hrest]
          rfl

theorem parameterValue_append {after rest : List Char} {value : ValueSyntax}
    (hafter : IsBlank after) (hvalue : value.WellFormed) (hends : value.Ends rest) :
    parameterValue (after ++ (value.text ++ rest)) = some (value.content, rest) := by
  unfold parameterValue
  cases value with
  | token text =>
      obtain ⟨c, hhead, hchar⟩ := @head_of_isToken text rest hvalue
      have hskip : skip [' ', '\t'] (after ++ ((ValueSyntax.token text).text ++ rest)) =
          text ++ rest := by
        show skip [' ', '\t'] (after ++ (text ++ rest)) = _
        refine skip_append hafter fun other hother => ?_
        rw [hhead] at hother
        cases hother
        exact (isTchar_iff_notMem hchar).2.1
      rw [hskip]
      split
      · rename_i other heq
        rw [heq] at hhead
        cases hhead
        exact absurd rfl (isTchar_iff_notMem hchar).2.2.2
      · exact token_append hvalue hends
  | quoted pieces =>
      have hskip : skip [' ', '\t'] (after ++ ((ValueSyntax.quoted pieces).text ++ rest)) =
          '"' :: (pieces.flatMap Piece.text ++ '"' :: rest) := by
        have htext : (ValueSyntax.quoted pieces).text ++ rest =
            '"' :: (pieces.flatMap Piece.text ++ '"' :: rest) := by
          simp [ValueSyntax.text]
        rw [htext]
        refine skip_append hafter fun other hother => ?_
        cases hother
        decide
      rw [hskip]
      exact quotedFrom_append hvalue rest

theorem parameterName_append {parameter : ParameterSyntax} (h : parameter.WellFormed)
    (rest : List Char) : parameterName (parameter.text ++ rest) =
      some (toAsciiLowercase parameter.name, parameter.after ++ (parameter.value.text ++ rest)) := by
  have htext : parameter.text ++ rest = parameter.gap ++ (parameter.name ++ (parameter.before ++
      '=' :: (parameter.after ++ (parameter.value.text ++ rest)))) := by
    simp [ParameterSyntax.text]
  obtain ⟨c, hhead, hchar⟩ := @head_of_isToken parameter.name (parameter.before ++
    '=' :: (parameter.after ++ (parameter.value.text ++ rest))) h.name
  have hskip : skip [',', ' ', '\t'] (parameter.text ++ rest) = parameter.name ++
      (parameter.before ++ '=' :: (parameter.after ++ (parameter.value.text ++ rest))) := by
    rw [htext]
    refine skip_append h.gap fun other hother => ?_
    rw [hhead] at hother
    cases hother
    exact (isTchar_iff_notMem hchar).1
  have hwhole : Whole (parameter.before ++
      '=' :: (parameter.after ++ (parameter.value.text ++ rest))) := by
    intro other hother
    cases hbefore : parameter.before with
    | nil =>
        rw [hbefore] at hother
        cases hother
        decide
    | cons blank before =>
        rw [hbefore] at hother
        cases hother
        have hblank := h.before other (hbefore ▸ List.mem_cons_self)
        simp only [List.mem_cons, List.not_mem_nil, or_false] at hblank
        rcases hblank with rfl | rfl <;> decide
  have hequals : skip [' ', '\t'] (parameter.before ++
      '=' :: (parameter.after ++ (parameter.value.text ++ rest))) =
        '=' :: (parameter.after ++ (parameter.value.text ++ rest)) := by
    refine skip_append h.before fun other hother => ?_
    cases hother
    decide
  unfold parameterName
  rw [hskip, token_append h.name hwhole]
  dsimp only
  rw [hequals]
  rfl

end Cursor

/-! ## A list of challenges as it is written -/

/-- What follows a scheme: parameters, or a `token68` with its padding. -/
inductive CredentialsSyntax where
  | parameters (listed : List ParameterSyntax)
  | token68 (gap body : List Char) (padding : Nat)
deriving DecidableEq

/-- A character of a `token68`, but for its padding. -/
def isToken68 (c : Char) : Bool := c.isAlphanum || "-._~+/".toList.contains c

namespace CredentialsSyntax

/-- What follows a scheme, as it is written. -/
def text : CredentialsSyntax → List Char
  | .parameters listed => parametersText listed
  | .token68 gap body padding => gap ++ (body ++ List.replicate padding '=')

/-- Parameters are set off by a space and then by commas, each under a name of its own; a
`token68` is set off by spaces. -/
def Grammatical : CredentialsSyntax → Prop
  | .parameters listed =>
      (∀ parameter ∈ listed, parameter.WellFormed) ∧
        (∀ first ∈ listed.head?, first.gap.head? = some ' ') ∧
          (∀ later ∈ listed.tail, ',' ∈ later.gap) ∧
            (listed.map fun parameter => toAsciiLowercase parameter.name).Nodup
  | .token68 gap body _ =>
      (gap ≠ [] ∧ ∀ c ∈ gap, c = ' ') ∧ body ≠ [] ∧ ∀ c ∈ body, isToken68 c = true

end CredentialsSyntax

/-- A challenge, with the gap before it. -/
structure ChallengeSyntax where
  gap : List Char
  scheme : List Char
  credentials : CredentialsSyntax
deriving DecidableEq

namespace ChallengeSyntax

/-- A challenge as it is written. -/
def text (challenge : ChallengeSyntax) : List Char :=
  challenge.gap ++ (challenge.scheme ++ challenge.credentials.text)

/-- A scheme and what follows it. -/
structure Grammatical (challenge : ChallengeSyntax) : Prop where
  gap : IsGap challenge.gap
  scheme : IsToken challenge.scheme
  credentials : challenge.credentials.Grammatical

/-- What is read of a challenge: a `token68` of token characters as a scheme of its own, and
any other not at all. -/
def read (challenge : ChallengeSyntax) : Option (List Challenge) :=
  let scheme := Challenge.schemeOf (toAsciiLowercase challenge.scheme)
  match challenge.credentials with
  | .parameters listed => some [⟨scheme, collect (listed.map ParameterSyntax.read)⟩]
  | .token68 _ body 0 =>
      if IsToken body then
        some [⟨scheme, ∅⟩, ⟨Challenge.schemeOf (toAsciiLowercase body), ∅⟩]
      else
        none
  | .token68 _ _ (_ + 1) => none

/-- A challenge means its scheme, and exactly its parameters. -/
structure Means (written : ChallengeSyntax) (challenge : Challenge) : Prop where
  scheme : challenge.scheme = Challenge.schemeOf (toAsciiLowercase written.scheme)
  parameters : ∃ listed, written.credentials = .parameters listed ∧
    ∀ name value, challenge.parameter name = some value ↔
      (name, value) ∈ listed.map ParameterSyntax.read

end ChallengeSyntax

/-- The text of some challenges. -/
def challengesText (challenges : List ChallengeSyntax) : List Char :=
  challenges.flatMap ChallengeSyntax.text

/-- What is read of some challenges, unless one of them cannot be. -/
def readAll : List ChallengeSyntax → Option (List Challenge)
  | [] => some []
  | challenge :: rest => do
      let first ← challenge.read
      let later ← readAll rest
      some (first ++ later)

/-- A header: challenges, and a gap at the end. -/
structure HeaderSyntax where
  challenges : List ChallengeSyntax
  trailing : List Char
deriving DecidableEq

namespace HeaderSyntax

/-- A header as it is written. -/
def text (header : HeaderSyntax) : List Char := challengesText header.challenges ++ header.trailing

/-- Challenges, set off by commas. -/
structure Grammatical (header : HeaderSyntax) : Prop where
  challenges : ∀ challenge ∈ header.challenges, challenge.Grammatical
  separated : ∀ later ∈ header.challenges.tail, ',' ∈ later.gap
  trailing : IsGap header.trailing

/-- No challenge of a header comes with a `token68`. -/
def WithoutToken68 (header : HeaderSyntax) : Prop :=
  ∀ challenge ∈ header.challenges, ∃ listed, challenge.credentials = .parameters listed

end HeaderSyntax

/-! ## What is written is read -/

section Complete

/-- What may follow the parameters of a challenge: nothing, or a gap that goes on with no `=`
and, where there is anything after blanks, has a comma there. -/
structure Follows (rest : List Char) : Prop where
  gap : ∀ c ∈ rest.head?, c ∈ [',', ' ', '\t']
  comma : ∀ c ∈ (skip [' ', '\t'] rest).head?, c = ','
  none : parameterName rest = none

theorem whole_of_gap {rest : List Char} (h : ∀ c ∈ rest.head?, c ∈ [',', ' ', '\t']) :
    Whole rest := by
  intro c hc
  have hmem := h c hc
  simp only [List.mem_cons, List.not_mem_nil, or_false] at hmem
  rcases hmem with rfl | rfl | rfl <;> decide

/-- After a gap with a comma in it there is a comma after the blanks. -/
theorem head_skip_of_comma {gap : List Char} (hgap : IsGap gap) (hcomma : ',' ∈ gap)
    (rest : List Char) : (skip [' ', '\t'] (gap ++ rest)).head? = some ',' := by
  induction gap with
  | nil => exact absurd hcomma List.not_mem_nil
  | cons c gap ih =>
      by_cases hc : c ∈ [' ', '\t']
      · have hskip : skip [' ', '\t'] (c :: gap ++ rest) = skip [' ', '\t'] (gap ++ rest) :=
          List.dropWhile_cons_of_pos (List.contains_iff_mem.mpr hc)
        rw [hskip]
        refine ih (fun other hother => hgap other (List.mem_cons_of_mem _ hother)) ?_
        refine (List.mem_cons.mp hcomma).resolve_left ?_
        rintro rfl
        exact absurd hc (by decide)
      · have hskip : skip [' ', '\t'] (c :: gap ++ rest) = c :: (gap ++ rest) :=
          List.dropWhile_cons_of_neg (by rw [List.contains_iff_mem]; exact hc)
        rw [hskip]
        refine congrArg some ((List.mem_cons.mp (hgap c List.mem_cons_self)).resolve_right hc)

/-- Blanks and commas alone. -/
theorem follows_of_isGap {trailing : List Char} (h : IsGap trailing) : Follows trailing where
  gap c hc := h c (List.mem_of_mem_head? hc)
  comma c hc := by
    have hmem : c ∈ trailing := (List.dropWhile_sublist _).subset (List.mem_of_mem_head? hc)
    have hblank : c ∉ [' ', '\t'] := by
      have hnot := List.head?_dropWhile_not ([' ', '\t'].contains ·) trailing
      unfold skip at hc
      rw [hc] at hnot
      intro hc'
      have hcontains : [' ', '\t'].contains c = true := List.contains_iff_mem.mpr hc'
      simp only [hcontains] at hnot
      exact absurd hnot (by decide)
    exact (List.mem_cons.mp (h c hmem)).resolve_right hblank
  none := by
    have hskip : skip [',', ' ', '\t'] trailing = [] :=
      List.dropWhile_eq_nil_iff.mpr fun c hc => List.contains_iff_mem.mpr (h c hc)
    unfold parameterName
    rw [hskip]
    rfl

/-- After a gap comes a comma, or what comes after it. -/
theorem head_skip_gap {gap rest : List Char} (hgap : IsGap gap) {c : Char}
    (hc : c ∈ (skip [' ', '\t'] (gap ++ rest)).head?) :
    c = ',' ∨ c ∈ (skip [' ', '\t'] rest).head? := by
  by_cases hcomma : ',' ∈ gap
  · rw [head_skip_of_comma hgap hcomma] at hc
    exact Or.inl (Option.some.inj hc).symm
  · refine Or.inr ?_
    have hblank : ∀ other ∈ gap, [' ', '\t'].contains other = true := by
      intro other hother
      refine List.contains_iff_mem.mpr ((List.mem_cons.mp (hgap other hother)).resolve_left ?_)
      rintro rfl
      exact hcomma hother
    unfold skip at hc
    rw [List.dropWhile_append_of_pos hblank] at hc
    exact hc

/-- A token comes next where it stands. -/
theorem skip_token {set name rest : List Char} (hname : IsToken name)
    (hset : ∀ c ∈ set, isTchar c = false) : skip set (name ++ rest) = name ++ rest := by
  obtain ⟨c, hhead, hchar⟩ := @head_of_isToken name rest hname
  refine @skip_append set [] (name ++ rest) nofun fun other hother hmem => ?_
  rw [hhead] at hother
  cases hother
  rw [hset c hmem] at hchar
  cases hchar

/-- A scheme is no parameter's name: no `=` comes after it. -/
theorem parameterName_scheme {gap scheme rest : List Char} (hgap : IsGap gap)
    (hscheme : IsToken scheme) (hrest : Whole rest)
    (hequals : ∀ c ∈ (skip [' ', '\t'] rest).head?, c ≠ '=') :
    parameterName (gap ++ (scheme ++ rest)) = none := by
  have hskip : skip [',', ' ', '\t'] (gap ++ (scheme ++ rest)) = scheme ++ rest := by
    refine skip_append hgap fun c hc => ?_
    obtain ⟨first, hhead, hchar⟩ := @head_of_isToken scheme rest hscheme
    rw [hhead] at hc
    cases hc
    exact (isTchar_iff_notMem hchar).1
  unfold parameterName
  rw [hskip, token_append hscheme hrest]
  dsimp only
  split
  · rename_i heq
    exact absurd rfl (hequals '=' (by rw [heq]; rfl))
  · rfl

theorem isToken68_ne {c : Char} (h : isToken68 c = true) :
    c ≠ '=' ∧ c ∉ [',', ' ', '\t'] ∧ (isTchar c = true ∨ c = '/') := by
  refine ⟨?_, fun hmem => ?_, ?_⟩
  · rintro rfl
    exact absurd h (by decide)
  · simp only [List.mem_cons, List.not_mem_nil, or_false] at hmem
    rcases hmem with rfl | rfl | rfl <;> exact absurd h (by decide)
  · unfold isToken68 at h
    unfold isTchar
    rcases Bool.or_eq_true_iff.mp h with halnum | hmark
    · exact Or.inl (by rw [halnum]; rfl)
    · have hmem : c ∈ ['-', '.', '_', '~', '+', '/'] := List.contains_iff_mem.mp hmark
      simp only [List.mem_cons, List.not_mem_nil, or_false] at hmem
      rcases hmem with rfl | rfl | rfl | rfl | rfl | rfl
      all_goals first | exact Or.inr rfl | exact Or.inl (by decide)

/-- What follows a scheme does not go on with it, and is no `=`. -/
theorem credentials_apart {credentials : CredentialsSyntax} (h : credentials.Grammatical)
    {rest : List Char} (hrest : Follows rest) :
    Whole (credentials.text ++ rest) ∧
      ∀ c ∈ (skip [' ', '\t'] (credentials.text ++ rest)).head?, c ≠ '=' := by
  -- After the scheme comes a blank, and past the blanks a name, a `token68` or a comma.
  cases credentials with
  | parameters listed =>
      obtain ⟨hwellFormed, hfirst, -, -⟩ := h
      cases listed with
      | nil =>
          refine ⟨whole_of_gap hrest.gap, fun c hc => ?_⟩
          rw [hrest.comma c hc]
          decide
      | cons first listed =>
          have hgap := (hwellFormed first List.mem_cons_self).gap
          have hname := (hwellFormed first List.mem_cons_self).name
          have hspace := hfirst first rfl
          obtain ⟨after, hafter⟩ : ∃ after,
              (CredentialsSyntax.parameters (first :: listed)).text ++ rest =
                first.gap ++ (first.name ++ after) := by
            refine ⟨first.before ++ '=' :: (first.after ++ (first.value.text ++
              (parametersText listed ++ rest))), ?_⟩
            simp [CredentialsSyntax.text, parametersText, ParameterSyntax.text]
          rw [hafter]
          constructor
          · intro c hc
            cases hgapText : first.gap with
            | nil =>
                rw [hgapText] at hspace
                cases hspace
            | cons space gap =>
                rw [hgapText] at hspace hc
                cases hspace
                cases hc
                decide
          · intro c hc
            rcases head_skip_gap hgap hc with rfl | hc
            · decide
            · rw [skip_token hname (by decide +kernel)] at hc
              obtain ⟨other, hhead, hchar⟩ := @head_of_isToken first.name after hname
              rw [hhead] at hc
              cases hc
              exact (isTchar_iff_notMem hchar).2.2.1
  | token68 gap body padding =>
      obtain ⟨⟨hnonempty, hspaces⟩, hbody, hall⟩ := h
      obtain ⟨first, body, rfl⟩ := List.exists_cons_of_ne_nil hbody
      obtain ⟨hne, hgapless, -⟩ := isToken68_ne (hall first List.mem_cons_self)
      constructor
      · intro c hc
        obtain ⟨space, gap, rfl⟩ := List.exists_cons_of_ne_nil hnonempty
        cases hc
        rw [hspaces c List.mem_cons_self]
        decide
      · intro c hc
        have hskip : skip [' ', '\t'] ((CredentialsSyntax.token68 gap (first :: body)
            padding).text ++ rest) = first :: (body ++ List.replicate padding '=' ++ rest) := by
          have htext : (CredentialsSyntax.token68 gap (first :: body) padding).text ++ rest =
              gap ++ first :: (body ++ List.replicate padding '=' ++ rest) := by
            simp [CredentialsSyntax.text]
          rw [htext]
          refine skip_append (fun other hother => ?_) fun other hother => ?_
          · rw [hspaces other hother]
            decide
          · cases hother
            exact fun hmem => hgapless (List.mem_cons_of_mem _ hmem)
        rw [hskip] at hc
        cases hc
        exact hne

/-- A challenge that is set off by a comma follows the one before it. -/
theorem follows_of_challenge {challenge : ChallengeSyntax} (h : challenge.Grammatical)
    (hcomma : ',' ∈ challenge.gap) {rest : List Char} (hrest : Follows rest) :
    Follows (challenge.text ++ rest) := by
  obtain ⟨hwhole, hequals⟩ := credentials_apart h.credentials hrest
  have htext : challenge.text ++ rest =
      challenge.gap ++ (challenge.scheme ++ (challenge.credentials.text ++ rest)) := by
    simp [ChallengeSyntax.text]
  rw [htext]
  refine ⟨fun c hc => ?_, fun c hc => ?_,
    parameterName_scheme h.gap h.scheme hwhole hequals⟩
  · obtain ⟨first, gap, hgap⟩ := List.exists_cons_of_ne_nil (List.ne_nil_of_mem hcomma)
    rw [hgap] at hc
    cases hc
    exact h.gap c (hgap ▸ List.mem_cons_self)
  · rw [head_skip_of_comma h.gap hcomma] at hc
    exact (Option.some.inj hc).symm

/-- Challenges that are set off by commas, and a gap at the end. -/
theorem follows_of_challenges {challenges : List ChallengeSyntax} {trailing : List Char}
    (h : ∀ challenge ∈ challenges, challenge.Grammatical)
    (hcommas : ∀ challenge ∈ challenges, ',' ∈ challenge.gap) (htrailing : IsGap trailing) :
    Follows (challengesText challenges ++ trailing) := by
  induction challenges with
  | nil => exact follows_of_isGap htrailing
  | cons challenge challenges ih =>
      have hrest := ih (fun other hother => h other (List.mem_cons_of_mem _ hother))
        fun other hother => hcommas other (List.mem_cons_of_mem _ hother)
      have htext : challengesText (challenge :: challenges) ++ trailing =
          challenge.text ++ (challengesText challenges ++ trailing) := by
        simp [challengesText]
      rw [htext]
      exact follows_of_challenge (h challenge List.mem_cons_self)
        (hcommas challenge List.mem_cons_self) hrest

/-! ### The parameters of a challenge -/

theorem length_text_pos (parameter : ParameterSyntax) : 0 < parameter.text.length := by
  unfold ParameterSyntax.text
  simp only [List.length_append, List.length_cons]
  omega

/-- Parameters are read to the last, and the text after them is left. -/
theorem readParameters_append {listed : List ParameterSyntax}
    (h : ∀ parameter ∈ listed, parameter.WellFormed)
    (hgaps : ∀ later ∈ listed.tail, later.gap ≠ []) {rest : List Char} (hrest : Follows rest)
    {steps : Nat} (hsteps : (parametersText listed ++ rest).length ≤ steps)
    (found : BTreeMap String String) :
    Challenge.readParameters steps found (parametersText listed ++ rest) =
      some (collectInto found (listed.map ParameterSyntax.read), rest) := by
  induction listed generalizing steps found with
  | nil =>
      cases steps with
      | zero => rfl
      | succ steps =>
          show Challenge.readParameters (steps + 1) found rest = _
          unfold Challenge.readParameters
          rw [hrest.none]
          rfl
  | cons parameter listed ih =>
      have hparameter := h parameter List.mem_cons_self
      have htext : parametersText (parameter :: listed) ++ rest =
          parameter.text ++ (parametersText listed ++ rest) := by
        simp [parametersText]
      have hpos := length_text_pos parameter
      rw [htext] at hsteps ⊢
      rw [List.length_append] at hsteps
      obtain ⟨steps, rfl⟩ : ∃ before, steps = before + 1 := ⟨steps - 1, by omega⟩
      -- A value that is a token ends where the next gap starts.
      have hends : parameter.value.Ends (parametersText listed ++ rest) := by
        cases hvalue : parameter.value with
        | quoted pieces => trivial
        | token text =>
            refine whole_of_gap fun c hc => ?_
            cases listed with
            | nil => exact hrest.gap c hc
            | cons next listed =>
                have hnext := (h next (List.mem_cons_of_mem _ List.mem_cons_self)).gap
                obtain ⟨first, gap, hgap⟩ := List.exists_cons_of_ne_nil
                  (hgaps next List.mem_cons_self)
                have hhead : (parametersText (next :: listed) ++ rest).head? = some first := by
                  simp [parametersText, ParameterSyntax.text, hgap]
                rw [hhead] at hc
                cases hc
                exact hnext c (hgap ▸ List.mem_cons_self)
      unfold Challenge.readParameters
      rw [parameterName_append hparameter]
      dsimp only
      rw [parameterValue_append hparameter.after hparameter.value hends]
      dsimp only [Option.bind_eq_bind, Option.bind_some]
      rw [ih (fun other hother => h other (List.mem_cons_of_mem _ hother))
        (fun later hlater => hgaps later (List.mem_of_mem_tail hlater)) (by omega)]
      rfl

/-! ### Challenges -/

theorem readParameters_none {text : List Char} (h : parameterName text = none) (steps : Nat)
    (found : BTreeMap String String) :
    Challenge.readParameters steps found text = some (found, text) := by
  cases steps with
  | zero => rfl
  | succ steps =>
      unfold Challenge.readParameters
      rw [h]

/-- One turn of the loop, at a scheme. -/
theorem parseFrom_scheme {gap scheme rest : List Char} (hgap : IsGap gap)
    (hscheme : IsToken scheme) (hrest : Whole rest) (steps : Nat) :
    Challenge.parseFrom (steps + 1) (gap ++ (scheme ++ rest)) =
      (Challenge.readParameters rest.length ∅ rest).bind fun read =>
        (Challenge.parseFrom steps read.2).map
          (⟨Challenge.schemeOf (toAsciiLowercase scheme), read.1⟩ :: ·) := by
  obtain ⟨c, hhead, hchar⟩ := @head_of_isToken scheme rest hscheme
  obtain ⟨tail, htail⟩ : ∃ tail, scheme ++ rest = c :: tail := List.head?_eq_some_iff.mp hhead
  have hskip : skip [',', ' ', '\t'] (gap ++ (scheme ++ rest)) = c :: tail := by
    rw [← htail]
    refine skip_append hgap fun other hother => ?_
    rw [hhead] at hother
    cases hother
    exact (isTchar_iff_notMem hchar).1
  rw [Challenge.parseFrom]
  rw [hskip]
  dsimp only
  rw [← htail, token_append hscheme hrest]
  dsimp only [Option.bind_eq_bind, Option.bind_some]
  cases Challenge.readParameters rest.length ∅ rest with
  | none => rfl
  | some read =>
      dsimp only [Option.bind_some]
      cases Challenge.parseFrom steps read.2 <;> rfl

/-- The loop stops where no scheme comes next. -/
theorem parseFrom_stops {c : Char} {rest : List Char} (hgap : c ∉ [',', ' ', '\t'])
    (hchar : isTchar c = false) (steps : Nat) :
    Challenge.parseFrom (steps + 1) (c :: rest) = none := by
  have hskip : skip [',', ' ', '\t'] (c :: rest) = c :: rest :=
    @skip_append _ [] (c :: rest) nofun fun other hother => by
      cases hother
      exact hgap
  have hwhole : Whole (c :: rest) := by
    intro other hother
    cases hother
    exact hchar
  unfold Challenge.parseFrom
  rw [hskip]
  dsimp only
  rw [token_eq_none hwhole]
  rfl

/-- A `token68` is of token characters, or they end at a slash. -/
theorem isToken_or_slash {body : List Char} (hbody : body ≠ [])
    (h : ∀ c ∈ body, isToken68 c = true) :
    IsToken body ∨ ∃ name more, body = name ++ '/' :: more ∧ ∀ c ∈ name, isTchar c = true := by
  by_cases hall : ∀ c ∈ body, isTchar c = true
  · exact Or.inl ⟨hbody, hall⟩
  · refine Or.inr ?_
    have hsplit := List.takeWhile_append_dropWhile (p := isTchar) (l := body)
    cases hdrop : body.dropWhile isTchar with
    | nil => exact absurd (List.dropWhile_eq_nil_iff.mp hdrop) hall
    | cons c more =>
        have hmem : c ∈ body := (List.dropWhile_sublist _).subset (hdrop ▸ List.mem_cons_self)
        have hnot : ¬ isTchar c = true := by
          have hhead := List.head_dropWhile_not isTchar (l := body) (by
            rw [hdrop]
            exact List.cons_ne_nil _ _)
          simp only [hdrop, List.head_cons] at hhead
          rw [hhead]
          exact Bool.false_ne_true
        obtain rfl : c = '/' := (isToken68_ne (h c hmem)).2.2.resolve_left hnot
        refine ⟨body.takeWhile isTchar, more, ?_, fun c hc => List.mem_takeWhile_imp hc⟩
        rw [← hdrop, hsplit]

/-- Spaces before a name are skipped with it. -/
theorem isGap_of_spaces {gap : List Char} (h : ∀ c ∈ gap, c = ' ') : IsGap gap := by
  intro c hc
  rw [h c hc]
  decide

/-- A `token68` that is all token characters is read as a scheme, with nothing after it. -/
theorem parseFrom_token68 {gap body rest : List Char} (hgap : ∀ c ∈ gap, c = ' ')
    (hbody : IsToken body) (hrest : Follows rest) (steps : Nat) :
    Challenge.parseFrom (steps + 1) (gap ++ (body ++ rest)) =
      (Challenge.parseFrom steps rest).map
        (⟨Challenge.schemeOf (toAsciiLowercase body), ∅⟩ :: ·) := by
  rw [parseFrom_scheme (isGap_of_spaces hgap) hbody (whole_of_gap hrest.gap),
    readParameters_none hrest.none]
  rfl

/-- Padding is read as the `=` of a parameter that has no value. -/
theorem readParameters_padded {gap body rest : List Char} (hgap : ∀ c ∈ gap, c = ' ')
    (hbody : IsToken body) (hrest : Follows rest) (padding steps : Nat)
    (found : BTreeMap String String) :
    Challenge.readParameters (steps + 1) found
      (gap ++ (body ++ (List.replicate (padding + 1) '=' ++ rest))) = none := by
  have hname : parameterName (gap ++ (body ++ (List.replicate (padding + 1) '=' ++ rest))) =
      some (toAsciiLowercase body, List.replicate padding '=' ++ rest) := by
    have hwhole : Whole (List.replicate (padding + 1) '=' ++ rest) := by
      intro c hc
      cases hc
      decide
    have hskip : skip [',', ' ', '\t'] (gap ++ (body ++
        (List.replicate (padding + 1) '=' ++ rest))) =
          body ++ (List.replicate (padding + 1) '=' ++ rest) := by
      refine skip_append (isGap_of_spaces hgap) fun c hc => ?_
      obtain ⟨first, hhead, hchar⟩ :=
        @head_of_isToken body (List.replicate (padding + 1) '=' ++ rest) hbody
      rw [hhead] at hc
      cases hc
      exact (isTchar_iff_notMem hchar).1
    unfold parameterName
    rw [hskip, token_append hbody hwhole]
    rfl
  have hvalue : parameterValue (List.replicate padding '=' ++ rest) = none := by
    unfold parameterValue
    cases padding with
    | zero =>
        rw [List.replicate_zero, List.nil_append]
        have hcomma := hrest.comma
        generalize skip [' ', '\t'] rest = left at hcomma
        cases left with
        | nil => rfl
        | cons c left =>
            obtain rfl : c = ',' := hcomma c rfl
            rfl
    | succ padding => rfl
  unfold Challenge.readParameters
  rw [hname]
  dsimp only
  rw [hvalue]
  rfl

/-- A slash ends a name, and starts none. -/
theorem parseFrom_slash {gap name more : List Char} (hgap : IsGap gap)
    (hname : ∀ c ∈ name, isTchar c = true) (steps : Nat) :
    parameterName (gap ++ (name ++ '/' :: more)) = none ∧
      Challenge.parseFrom (steps + 2) (gap ++ (name ++ '/' :: more)) = none := by
  have hslash : Whole ('/' :: more) := by
    intro c hc
    cases hc
    decide
  cases name with
  | nil =>
      have hskip : skip [',', ' ', '\t'] (gap ++ ([] ++ '/' :: more)) = '/' :: more := by
        refine skip_append hgap fun c hc => ?_
        cases hc
        decide
      constructor
      · unfold parameterName
        rw [hskip, token_eq_none hslash]
      · unfold Challenge.parseFrom
        rw [hskip]
        dsimp only
        rw [token_eq_none hslash]
        rfl
  | cons first name =>
      have htoken : IsToken (first :: name) := ⟨List.cons_ne_nil _ _, hname⟩
      have hnone : parameterName ('/' :: more) = none := by
        have hskip : skip [',', ' ', '\t'] ('/' :: more) = '/' :: more := rfl
        unfold parameterName
        rw [hskip, token_eq_none hslash]
      constructor
      · refine parameterName_scheme hgap htoken hslash fun c hc => ?_
        cases hc
        decide
      · rw [parseFrom_scheme hgap htoken hslash, readParameters_none hnone]
        have hstops : Challenge.parseFrom (steps + 1) ('/' :: more) = none :=
          parseFrom_stops (by decide) (by decide) steps
        rw [Option.bind_some, hstops]
        rfl

/-- One challenge is read, and then what follows it. -/
theorem parseFrom_challenge {challenge : ChallengeSyntax} (h : challenge.Grammatical)
    {rest : List Char} (hrest : Follows rest) {later : Option (List Challenge)}
    (hlater : ∀ steps, rest.length < steps → Challenge.parseFrom steps rest = later) {steps : Nat}
    (hsteps : (challenge.text ++ rest).length < steps) :
    Challenge.parseFrom steps (challenge.text ++ rest) =
      challenge.read.bind fun first => later.map (first ++ ·) := by
  obtain ⟨gap, scheme, credentials⟩ := challenge
  obtain ⟨hgap, hscheme, hcredentials⟩ := h
  dsimp only at hgap hscheme hcredentials
  have htext : (ChallengeSyntax.mk gap scheme credentials).text ++ rest =
      gap ++ (scheme ++ (credentials.text ++ rest)) := by
    simp [ChallengeSyntax.text]
  have hpos := List.length_pos_iff.mpr hscheme.1
  rw [htext] at hsteps ⊢
  simp only [List.length_append] at hsteps
  obtain ⟨steps, rfl⟩ : ∃ before, steps = before + 1 := ⟨steps - 1, by omega⟩
  rw [parseFrom_scheme hgap hscheme (credentials_apart hcredentials hrest).1]
  -- A `token68` is read as a scheme of its own where it is a token, and is not read otherwise.
  cases credentials with
  | parameters listed =>
      obtain ⟨hwellFormed, -, hcommas, -⟩ := hcredentials
      have hread := @readParameters_append listed hwellFormed
        (fun other hother => List.ne_nil_of_mem (hcommas other hother)) rest hrest
        (parametersText listed ++ rest).length le_rfl ∅
      show (Challenge.readParameters (parametersText listed ++ rest).length ∅
        (parametersText listed ++ rest)).bind _ = _
      rw [hread, Option.bind_some, hlater steps (by omega)]
      rfl
  | token68 space body padding =>
      obtain ⟨⟨-, hspaces⟩, hbody, hall⟩ := hcredentials
      have hlength := List.length_pos_iff.mpr hbody
      have hcredentialsText : (CredentialsSyntax.token68 space body padding).text ++ rest =
          space ++ (body ++ (List.replicate padding '=' ++ rest)) := by
        simp [CredentialsSyntax.text]
      simp only [CredentialsSyntax.text, List.length_append] at hsteps
      rw [hcredentialsText]
      rcases isToken_or_slash hbody hall with htoken | ⟨name, more, rfl, hname⟩
      · cases padding with
        | zero =>
            have hnone : parameterName (space ++ (body ++ rest)) = none :=
              parameterName_scheme (isGap_of_spaces hspaces) htoken (whole_of_gap hrest.gap)
                fun c hc => by
                  rw [hrest.comma c hc]
                  decide
            rw [List.replicate_zero, List.nil_append, readParameters_none hnone, Option.bind_some]
            obtain ⟨steps, rfl⟩ : ∃ before, steps = before + 1 := ⟨steps - 1, by omega⟩
            rw [parseFrom_token68 hspaces htoken hrest, hlater steps (by omega)]
            show _ = (if IsToken body then _ else none : Option (List Challenge)).bind _
            rw [if_pos htoken]
            cases later <;> rfl
        | succ padding =>
            obtain ⟨length, hlengthText⟩ : ∃ length, (space ++ (body ++
                (List.replicate (padding + 1) '=' ++ rest))).length = length + 1 := by
              refine ⟨_, (Nat.succ_pred ?_).symm⟩
              simp only [List.length_append]
              omega
            rw [hlengthText, readParameters_padded hspaces htoken hrest]
            rfl
      · -- The slash is no token character, so the header is not read.
        have hslash := fun steps => @parseFrom_slash space name
          (more ++ (List.replicate padding '=' ++ rest)) (isGap_of_spaces hspaces) hname steps
        have hmore : name ++ '/' :: more ++ (List.replicate padding '=' ++ rest) =
            name ++ '/' :: (more ++ (List.replicate padding '=' ++ rest)) := by simp
        simp only [List.length_append, List.length_cons] at hsteps
        obtain ⟨steps, rfl⟩ : ∃ before, steps = before + 2 := ⟨steps - 2, by omega⟩
        rw [hmore, readParameters_none (hslash 0).1, Option.bind_some, (hslash steps).2]
        have hnot : ¬ IsToken (name ++ '/' :: more) := by
          intro htoken
          have hchar := htoken.2 '/' (List.mem_append_right _ List.mem_cons_self)
          exact absurd hchar (by decide)
        have hread : (ChallengeSyntax.mk gap scheme
            (.token68 space (name ++ '/' :: more) padding)).read = none := by
          cases padding with
          | zero => exact if_neg hnot
          | succ padding => rfl
        rw [hread]
        rfl

/-- Challenges are read in turn. -/
theorem parseFrom_challenges {challenges : List ChallengeSyntax} {trailing : List Char}
    (h : ∀ challenge ∈ challenges, challenge.Grammatical)
    (hcommas : ∀ later ∈ challenges.tail, ',' ∈ later.gap) (htrailing : IsGap trailing)
    {steps : Nat} (hsteps : (challengesText challenges ++ trailing).length < steps) :
    Challenge.parseFrom steps (challengesText challenges ++ trailing) = readAll challenges := by
  induction challenges generalizing steps with
  | nil =>
      obtain ⟨steps, rfl⟩ : ∃ before, steps = before + 1 :=
        ⟨steps - 1, (Nat.sub_add_cancel (Nat.zero_lt_of_lt hsteps)).symm⟩
      have hskip : skip [',', ' ', '\t'] trailing = [] :=
        List.dropWhile_eq_nil_iff.mpr fun c hc => List.contains_iff_mem.mpr (htrailing c hc)
      show Challenge.parseFrom (steps + 1) trailing = _
      unfold Challenge.parseFrom
      rw [hskip]
      rfl
  | cons challenge challenges ih =>
      have hothers : ∀ other ∈ challenges, other.Grammatical :=
        fun other hother => h other (List.mem_cons_of_mem _ hother)
      have htext : challengesText (challenge :: challenges) ++ trailing =
          challenge.text ++ (challengesText challenges ++ trailing) := by
        simp [challengesText]
      rw [htext] at hsteps ⊢
      rw [parseFrom_challenge (h challenge List.mem_cons_self)
        (follows_of_challenges hothers hcommas htrailing)
        (fun steps hlong => ih hothers
          (fun later hlater => hcommas later (List.mem_of_mem_tail hlater)) hlong) hsteps]
      rw [readAll]
      cases challenge.read with
      | none => rfl
      | some first =>
          show (readAll challenges).map _ = _
          cases readAll challenges <;> rfl

/-- A header is read as it was written. -/
theorem parse_text {header : HeaderSyntax} (h : header.Grammatical) :
    Challenge.parse (String.ofList header.text) = readAll header.challenges := by
  unfold Challenge.parse
  rw [String.toList_ofList]
  exact parseFrom_challenges h.challenges h.separated h.trailing (Nat.lt_succ_self _)

/-- Challenges without a `token68` are read as what they mean. -/
theorem readAll_means {challenges : List ChallengeSyntax}
    (h : ∀ challenge ∈ challenges, challenge.Grammatical)
    (hplain : ∀ challenge ∈ challenges, ∃ listed, challenge.credentials = .parameters listed) :
    ∃ found, readAll challenges = some found ∧
      List.Forall₂ ChallengeSyntax.Means challenges found := by
  induction challenges with
  | nil => exact ⟨[], rfl, .nil⟩
  | cons challenge challenges ih =>
      obtain ⟨found, hfound, hmeans⟩ :=
        ih (fun other hother => h other (List.mem_cons_of_mem _ hother))
          fun other hother => hplain other (List.mem_cons_of_mem _ hother)
      obtain ⟨listed, hlisted⟩ := hplain challenge List.mem_cons_self
      have hgrammatical := (h challenge List.mem_cons_self).credentials
      rw [hlisted] at hgrammatical
      have hnodup : ((listed.map ParameterSyntax.read).map Prod.fst).Nodup := by
        rw [List.map_map]
        exact hgrammatical.2.2.2
      refine ⟨⟨Challenge.schemeOf (toAsciiLowercase challenge.scheme),
        collect (listed.map ParameterSyntax.read)⟩ :: found, ?_, .cons ?_ hmeans⟩
      · have hread : challenge.read = some [⟨Challenge.schemeOf (toAsciiLowercase
            challenge.scheme), collect (listed.map ParameterSyntax.read)⟩] := by
          unfold ChallengeSyntax.read
          rw [hlisted]
        unfold readAll
        rw [hread, hfound]
        rfl
      · exact ⟨rfl, listed, hlisted, fun name value => getElem?_collect_eq_some hnodup⟩

end Complete

end Registry
end SaasFabric
