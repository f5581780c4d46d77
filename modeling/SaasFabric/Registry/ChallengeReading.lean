import SaasFabric.Registry.ChallengeSyntax

/-!
# What is read of any header

Whatever is read of a header was written in it, in turn: every scheme and every name is a whole
token outside all quotes, and every value is a whole token or all that is between two quotes.
-/

namespace SaasFabric
namespace Registry

open Library Cursor

/-! ## What was read, as it was written -/

/-- Some parameters, read one after the other; each value that is a token is a whole one. -/
inductive ReadsParameters : List Char → List ParameterSyntax → List Char → Prop where
  | done (rest : List Char) : ReadsParameters rest [] rest
  | more {parameter : ParameterSyntax} {text rest : List Char} {listed : List ParameterSyntax}
      (wellFormed : parameter.WellFormed) (ends : parameter.value.Ends text)
      (later : ReadsParameters text listed rest) :
      ReadsParameters (parameter.text ++ text) (parameter :: listed) rest

/-- Some challenges, read one after the other, up to a gap at the end. -/
inductive ReadsChallenges : List Char → List Challenge → Prop where
  | done {trailing : List Char} (isGap : IsGap trailing) : ReadsChallenges trailing []
  | more {gap scheme text rest : List Char} {listed : List ParameterSyntax}
      {found : List Challenge} (isGap : IsGap gap) (isToken : IsToken scheme)
      (whole : Whole text) (parameters : ReadsParameters text listed rest)
      (later : ReadsChallenges rest found) :
      ReadsChallenges (gap ++ (scheme ++ text))
        (⟨Challenge.schemeOf (toAsciiLowercase scheme),
          collect (listed.map ParameterSyntax.read)⟩ :: found)

section Sound

theorem exists_skip (set text : List Char) :
    ∃ gap, text = gap ++ skip set text ∧ ∀ c ∈ gap, c ∈ set := by
  refine ⟨text.takeWhile set.contains, List.takeWhile_append_dropWhile.symm, fun c hc => ?_⟩
  exact List.contains_iff_mem.mp (List.mem_takeWhile_imp hc)

theorem token_sound {text name rest : List Char} (h : token text = some (name, rest)) :
    text = name ++ rest ∧ IsToken name ∧ Whole rest := by
  unfold token at h
  split at h
  · cases h
  · rename_i hname
    cases h
    refine ⟨List.takeWhile_append_dropWhile.symm, ⟨hname, fun c hc => List.mem_takeWhile_imp hc⟩,
      fun c hc => ?_⟩
    have hnot := List.head?_dropWhile_not isTchar text
    rw [hc] at hnot
    exact hnot

theorem quotedFrom_sound {text value rest : List Char}
    (h : quotedFrom text = some (value, rest)) :
    ∃ pieces : List Piece, (∀ piece ∈ pieces, piece.WellFormed) ∧
      text = pieces.flatMap Piece.text ++ '"' :: rest ∧ value = pieces.map Piece.content := by
  induction text using quotedFrom.induct generalizing value rest with
  | case1 after =>
      cases h
      exact ⟨[], List.forall_mem_nil _, rfl, rfl⟩
  | case2 escaped after ih =>
      rw [quotedFrom] at h
      obtain ⟨read, hread, hpair⟩ := Option.map_eq_some_iff.mp h
      cases hpair
      obtain ⟨pieces, hpieces, htext, hvalue⟩ := ih hread
      refine ⟨.escaped escaped :: pieces, ?_, ?_, ?_⟩
      · exact List.forall_mem_cons.mpr ⟨trivial, hpieces⟩
      · rw [htext]
        rfl
      · rw [hvalue]
        rfl
  | case3 => cases h
  | case4 other after hquote hescape hend ih =>
      rw [quotedFrom] at h
      · obtain ⟨read, hread, hpair⟩ := Option.map_eq_some_iff.mp h
        cases hpair
        obtain ⟨pieces, hpieces, htext, hvalue⟩ := ih hread
        refine ⟨.plain other :: pieces, ?_, ?_, ?_⟩
        · refine List.forall_mem_cons.mpr ⟨⟨fun heq => hquote heq, fun heq => ?_⟩, hpieces⟩
          -- A backslash with nothing after it closes no quotes.
          cases after with
          | nil => exact hend heq rfl
          | cons escaped after => exact hescape escaped after heq rfl
        · rw [htext]
          rfl
        · rw [hvalue]
          rfl
      all_goals assumption
  | case5 => cases h

theorem parameterValue_sound {text value rest : List Char}
    (h : parameterValue text = some (value, rest)) :
    ∃ (after : List Char) (written : ValueSyntax), IsBlank after ∧ written.WellFormed ∧
      written.Ends rest ∧ written.content = value ∧ text = after ++ (written.text ++ rest) := by
  obtain ⟨after, htext, hafter⟩ := exists_skip [' ', '\t'] text
  unfold parameterValue at h
  split at h
  · rename_i inner hquote
    obtain ⟨pieces, hpieces, hinner, rfl⟩ := quotedFrom_sound h
    refine ⟨after, .quoted pieces, hafter, hpieces, trivial, rfl, ?_⟩
    rw [htext, hquote, hinner]
    simp [ValueSyntax.text]
  · obtain ⟨hsplit, hname, hwhole⟩ := token_sound h
    exact ⟨after, .token value, hafter, hname, hwhole, rfl, htext.trans (by rw [hsplit]; rfl)⟩

theorem parameterName_sound {text rest : List Char} {name : String}
    (h : parameterName text = some (name, rest)) :
    ∃ gap written before : List Char, IsGap gap ∧ IsToken written ∧ IsBlank before ∧
      name = toAsciiLowercase written ∧ text = gap ++ (written ++ (before ++ '=' :: rest)) := by
  obtain ⟨gap, htext, hgap⟩ := exists_skip [',', ' ', '\t'] text
  unfold parameterName at h
  split at h
  · cases h
  · rename_i written after htoken
    obtain ⟨hsplit, hwritten, -⟩ := token_sound htoken
    obtain ⟨before, hafter, hbefore⟩ := exists_skip [' ', '\t'] after
    split at h
    · rename_i left hequals
      cases h
      refine ⟨gap, written, before, hgap, hwritten, hbefore, rfl, ?_⟩
      rw [htext, hsplit, hafter, hequals]
    · cases h

theorem readParameters_sound {steps : Nat} {found result : BTreeMap String String}
    {text rest : List Char}
    (h : Challenge.readParameters steps found text = some (result, rest)) :
    ∃ listed, ReadsParameters text listed rest ∧
      result = collectInto found (listed.map ParameterSyntax.read) := by
  induction steps generalizing found text with
  | zero =>
      cases h
      exact ⟨[], .done _, rfl⟩
  | succ steps ih =>
      unfold Challenge.readParameters at h
      split at h
      · cases h
        exact ⟨[], .done _, rfl⟩
      · rename_i name left hname
        obtain ⟨⟨value, later⟩, hvalue, hmore⟩ := Option.bind_eq_some_iff.mp h
        obtain ⟨gap, written, before, hgap, hwritten, hbefore, rfl, htext⟩ :=
          parameterName_sound hname
        obtain ⟨after, value, hafter, hwell, hends, rfl, hleft⟩ := parameterValue_sound hvalue
        obtain ⟨listed, hlisted, hresult⟩ := ih hmore
        refine ⟨⟨gap, written, before, after, value⟩ :: listed, ?_, hresult⟩
        have hwhole : text =
            (ParameterSyntax.mk gap written before after value).text ++ later := by
          rw [htext, hleft]
          simp [ParameterSyntax.text]
        rw [hwhole]
        exact .more ⟨hgap, hwritten, hbefore, hafter, hwell⟩ hends hlisted

theorem parseFrom_sound {steps : Nat} {text : List Char} (hsteps : text.length < steps)
    {found : List Challenge} (h : Challenge.parseFrom steps text = some found) :
    ReadsChallenges text found := by
  induction steps generalizing text found with
  | zero => exact absurd hsteps (Nat.not_lt_zero _)
  | succ steps ih =>
      obtain ⟨gap, htext, hgap⟩ := exists_skip [',', ' ', '\t'] text
      have hshort := Challenge.length_skip [',', ' ', '\t'] text
      unfold Challenge.parseFrom at h
      split at h
      · rename_i hend
        cases h
        rw [hend, List.append_nil] at htext
        exact .done (htext ▸ hgap)
      · rename_i c left hleft
        obtain ⟨⟨scheme, after⟩, htoken, hafter⟩ := Option.bind_eq_some_iff.mp h
        obtain ⟨⟨parameters, rest⟩, hparameters, hrest⟩ := Option.bind_eq_some_iff.mp hafter
        obtain ⟨later, hlater, hfound⟩ := Option.bind_eq_some_iff.mp hrest
        cases hfound
        have hlt := Challenge.length_token htoken
        have hle := (Challenge.readParameters_complete le_rfl hparameters).2
        obtain ⟨hsplit, hscheme, hwhole⟩ := token_sound htoken
        obtain ⟨listed, hlisted, rfl⟩ := readParameters_sound hparameters
        rw [hleft] at hshort
        rw [htext, hleft, hsplit]
        refine .more hgap hscheme hwhole hlisted (ih ?_ hlater)
        omega

end Sound

/-! ## Outside all quotes -/

/-- Where a character stands: outside quotes, inside, or behind a backslash inside. -/
inductive Quoting where
  | outside
  | inside
  | escaped
deriving DecidableEq

/-- Past one more character. -/
def Quoting.step : Quoting → Char → Quoting
  | .outside, c => if c = '"' then .inside else .outside
  | .inside, c => if c = '"' then .outside else if c = '\\' then .escaped else .inside
  | .escaped, _ => .inside

/-- What comes after some text stands outside all quotes. -/
def Outside (text : List Char) : Prop := text.foldl Quoting.step .outside = .outside

section Quotes

theorem outside_append {first second : List Char} (hfirst : Outside first)
    (hsecond : Outside second) : Outside (first ++ second) := by
  unfold Outside at *
  rw [List.foldl_append, hfirst, hsecond]

theorem outside_of_notMem {text : List Char} (h : '"' ∉ text) : Outside text := by
  induction text with
  | nil => rfl
  | cons c text ih =>
      obtain ⟨hne, hrest⟩ := List.ne_and_not_mem_of_not_mem_cons h
      show List.foldl Quoting.step (if c = '"' then .inside else .outside) text = .outside
      rw [if_neg (Ne.symm hne)]
      exact ih hrest

/-- Between its quotes a quoted string stays inside. -/
theorem inside_pieces {pieces : List Piece} (h : ∀ piece ∈ pieces, piece.WellFormed) :
    (pieces.flatMap Piece.text).foldl Quoting.step .inside = .inside := by
  induction pieces with
  | nil => rfl
  | cons piece pieces ih =>
      have hrest := ih fun other hother => h other (List.mem_cons_of_mem _ hother)
      cases piece with
      | plain c =>
          obtain ⟨hquote, hescape⟩ := h (.plain c) List.mem_cons_self
          show List.foldl Quoting.step (if c = '"' then .outside else if c = '\\' then .escaped
            else .inside) (pieces.flatMap Piece.text) = .inside
          rw [if_neg hquote, if_neg hescape, hrest]
      | escaped c => exact hrest

theorem outside_isToken {text : List Char} (h : IsToken text) : Outside text := by
  refine outside_of_notMem fun hmem => ?_
  exact (isTchar_iff_notMem (h.2 _ hmem)).2.2.2 rfl

theorem outside_isGap {text : List Char} (h : IsGap text) : Outside text := by
  refine outside_of_notMem fun hmem => ?_
  exact absurd (h _ hmem) (by decide)

theorem outside_isBlank {text : List Char} (h : IsBlank text) : Outside text :=
  outside_isGap fun c hc => List.mem_cons_of_mem _ (h c hc)

theorem ValueSyntax.WellFormed.outside {value : ValueSyntax} (h : value.WellFormed) :
    Outside value.text := by
  cases value with
  | token text => exact outside_isToken h
  | quoted pieces =>
      show List.foldl Quoting.step .inside (pieces.flatMap Piece.text ++ ['"']) = .outside
      rw [List.foldl_append, inside_pieces h]
      rfl

theorem ParameterSyntax.WellFormed.outside {parameter : ParameterSyntax}
    (h : parameter.WellFormed) : Outside parameter.text := by
  have hequals : Outside ('=' :: (parameter.after ++ parameter.value.text)) :=
    outside_append (outside_isBlank h.after) h.value.outside
  exact outside_append (outside_isGap h.gap) (outside_append (outside_isToken h.name)
    (outside_append (outside_isBlank h.before) hequals))

/-- Every parameter stands in the text outside all quotes, and so does what is left. -/
theorem ReadsParameters.located {text rest : List Char} {listed : List ParameterSyntax}
    (h : ReadsParameters text listed rest) :
    (∃ used, text = used ++ rest ∧ Outside used) ∧ ∀ parameter ∈ listed, ∃ before after,
      text = before ++ (parameter.text ++ after) ∧ Outside before ∧ parameter.WellFormed ∧
        parameter.value.Ends after := by
  induction h with
  | done rest => exact ⟨⟨[], rfl, rfl⟩, nofun⟩
  | @more parameter text rest listed hwell hends hlater ih =>
      obtain ⟨⟨used, hused, hout⟩, hlocated⟩ := ih
      constructor
      · refine ⟨parameter.text ++ used, ?_, outside_append hwell.outside hout⟩
        rw [hused, List.append_assoc]
      · intro other hother
        rcases List.mem_cons.mp hother with rfl | hother
        · exact ⟨[], text, rfl, rfl, hwell, hends⟩
        · obtain ⟨before, after, htext, hbefore, hrest⟩ := hlocated other hother
          refine ⟨parameter.text ++ before, after, ?_, outside_append hwell.outside hbefore, hrest⟩
          rw [htext, List.append_assoc]

/-- A challenge was read from where it stands: its scheme is a whole token outside all quotes,
and so is the name of every parameter, whose value follows it. -/
structure ReadInPlace (text : List Char) (challenge : Challenge) : Prop where
  scheme : ∃ before scheme after, text = before ++ (scheme ++ after) ∧ Outside before ∧
    IsToken scheme ∧ Whole after ∧
      challenge.scheme = Challenge.schemeOf (toAsciiLowercase scheme)
  parameters : ∀ name value, challenge.parameter name = some value → ∃ before written after,
    text = before ++ (ParameterSyntax.text written ++ after) ∧ Outside before ∧
      written.WellFormed ∧ written.value.Ends after ∧ written.read = (name, value)

/-- The same, further on. -/
theorem ReadInPlace.append {used text : List Char} {challenge : Challenge}
    (h : ReadInPlace text challenge) (hused : Outside used) :
    ReadInPlace (used ++ text) challenge := by
  constructor
  · obtain ⟨before, scheme, after, rfl, hbefore, hrest⟩ := h.scheme
    exact ⟨used ++ before, scheme, after, (List.append_assoc _ _ _).symm,
      outside_append hused hbefore, hrest⟩
  · intro name value hvalue
    obtain ⟨before, written, after, rfl, hbefore, hrest⟩ := h.parameters name value hvalue
    exact ⟨used ++ before, written, after, (List.append_assoc _ _ _).symm,
      outside_append hused hbefore, hrest⟩

theorem ReadsChallenges.inPlace {text : List Char} {found : List Challenge}
    (h : ReadsChallenges text found) : ∀ challenge ∈ found, ReadInPlace text challenge := by
  induction h with
  | done => exact nofun
  | @more gap scheme text rest listed found hgap hscheme hwhole hparameters hlater ih =>
      obtain ⟨⟨used, hused, hout⟩, hlocated⟩ := hparameters.located
      have hstart : Outside (gap ++ scheme) :=
        outside_append (outside_isGap hgap) (outside_isToken hscheme)
      intro challenge hchallenge
      rcases List.mem_cons.mp hchallenge with rfl | hchallenge
      · refine ⟨⟨gap, scheme, text, rfl, outside_isGap hgap, hscheme, hwhole, rfl⟩, ?_⟩
        intro name value hvalue
        obtain ⟨written, hwritten, hread⟩ := List.mem_map.mp (mem_of_getElem?_collect hvalue)
        obtain ⟨before, after, htext, hbefore, hwell, hends⟩ := hlocated written hwritten
        refine ⟨gap ++ scheme ++ before, written, after, ?_, outside_append hstart hbefore,
          hwell, hends, hread⟩
        rw [htext]
        simp only [List.append_assoc]
      · have hmoved := (ih challenge hchallenge).append (outside_append hstart hout)
        have htext : gap ++ (scheme ++ text) = gap ++ scheme ++ used ++ rest := by
          rw [hused]
          simp only [List.append_assoc]
        exact htext ▸ hmoved

end Quotes

/-! ## The loops end -/

/-- More steps than there are characters change nothing for the parameters, either. -/
theorem readParameters_steps {steps : Nat} {text : List Char} (h : text.length ≤ steps)
    (found : BTreeMap String String) :
    Challenge.readParameters steps found text =
      Challenge.readParameters text.length found text := by
  suffices hsame : ∀ bound steps steps', ∀ (found : BTreeMap String String) (text : List Char),
      text.length ≤ bound → text.length ≤ steps → text.length ≤ steps' →
        Challenge.readParameters steps found text = Challenge.readParameters steps' found text from
    hsame _ _ _ found text le_rfl h le_rfl
  intro bound
  induction bound with
  | zero =>
      intro steps steps' found text hbound _ _
      rw [List.length_eq_zero_iff.mp (Nat.le_zero.mp hbound)]
      rw [readParameters_none rfl, readParameters_none rfl]
  | succ bound ih =>
      intro steps steps' found text hbound hsteps hsteps'
      cases hname : parameterName text with
      | none => rw [readParameters_none hname, readParameters_none hname]
      | some read =>
          have hlt := Challenge.length_parameterName hname
          obtain ⟨steps, rfl⟩ : ∃ before, steps = before + 1 := ⟨steps - 1, by omega⟩
          obtain ⟨steps', rfl⟩ : ∃ before, steps' = before + 1 := ⟨steps' - 1, by omega⟩
          unfold Challenge.readParameters
          rw [hname]
          dsimp only
          cases hvalue : parameterValue read.2 with
          | none => rfl
          | some value =>
              have hle := Challenge.length_parameterValue hvalue
              exact ih steps steps' _ value.2 (by omega) (by omega) (by omega)

/-! ## Headers -/

/-- A header of the grammar is read as it was written, and without a `token68` as what it means:
the same challenges in the same order.  Whatever is read of any text was read in place, and both
loops end by themselves. -/
theorem parse_by_its_grammar :
    (∀ header : HeaderSyntax, header.Grammatical →
      Challenge.parse (String.ofList header.text) = readAll header.challenges ∧
        (header.WithoutToken68 → ∃ found,
          Challenge.parse (String.ofList header.text) = some found ∧
            List.Forall₂ ChallengeSyntax.Means header.challenges found)) ∧
    (∀ value found, Challenge.parse value = some found →
      ReadsChallenges value.toList found ∧
        ∀ challenge ∈ found, ReadInPlace value.toList challenge) ∧
    (∀ value steps, value.toList.length < steps →
      Challenge.parseFrom steps value.toList = Challenge.parse value) ∧
    ∀ text steps found, text.length ≤ steps →
      Challenge.readParameters steps found text =
        Challenge.readParameters text.length found text := by
  refine ⟨fun header h => ⟨parse_text h, fun hplain => ?_⟩, fun value found h => ?_,
    fun value steps hsteps => Challenge.parseFrom_steps hsteps,
    fun text steps found hsteps => readParameters_steps hsteps found⟩
  · rw [parse_text h]
    exact readAll_means h.challenges hplain
  · have hreads := parseFrom_sound (Nat.lt_succ_self _) h
    exact ⟨hreads, hreads.inPlace⟩

/-- A realm that is quoted with an escape, after a scheme that comes with nothing. -/
def quotedHeader : HeaderSyntax where
  challenges :=
    [⟨[], "Basic".toList, .parameters []⟩,
      ⟨", ,".toList, "bEaReR".toList, .parameters
        [⟨"  ".toList, "REALM".toList, " ".toList, "\t".toList,
            .quoted [.plain 'r', .escaped '"', .plain ',']⟩,
          ⟨" , ".toList, "service".toList, [], [], .token "registry".toList⟩]⟩]
  trailing := " ".toList

theorem quotedHeader_grammatical : quotedHeader.Grammatical where
  challenges := by
    intro challenge hchallenge
    rcases List.mem_cons.mp hchallenge with rfl | hchallenge
    · exact ⟨by decide +kernel, by decide +kernel, nofun, by decide +kernel, by decide +kernel, by decide +kernel⟩
    · obtain rfl := List.mem_singleton.mp hchallenge
      refine ⟨by decide +kernel, by decide +kernel, ?_, by decide +kernel, by decide +kernel, by decide +kernel⟩
      intro parameter hparameter
      rcases List.mem_cons.mp hparameter with rfl | hparameter
      · exact ⟨by decide +kernel, by decide +kernel, by decide +kernel, by decide +kernel, by
          intro piece hpiece
          revert piece
          decide +kernel⟩
      · obtain rfl := List.mem_singleton.mp hparameter
        exact ⟨by decide +kernel, by decide +kernel, by decide +kernel, by decide +kernel, by
          show IsToken _
          decide +kernel⟩
  separated := by decide +kernel
  trailing := by decide +kernel

/-- That header is read as what it means, and its realm is what stands between its quotes. -/
theorem quotedHeader_is_read :
    (∃ found, Challenge.parse (String.ofList quotedHeader.text) = some found ∧
      List.Forall₂ ChallengeSyntax.Means quotedHeader.challenges found) ∧
    ReadsChallenges "Basic realm=x".toList [⟨.basic, collect [("realm", "x")]⟩] ∧
    Challenge.parseFrom 40 "Basic realm=x".toList = Challenge.parse "Basic realm=x" ∧
    Challenge.readParameters 40 ∅ "realm=x".toList =
      Challenge.readParameters 7 ∅ "realm=x".toList := by
  obtain ⟨hcomplete, hsound, hsteps, hparameters⟩ := parse_by_its_grammar
  refine ⟨(hcomplete quotedHeader quotedHeader_grammatical).2 ?_,
    (hsound "Basic realm=x" _ rfl).1, hsteps "Basic realm=x" 40 (by decide +kernel),
    hparameters "realm=x".toList 40 ∅ (by decide +kernel)⟩
  intro challenge hchallenge
  rcases List.mem_cons.mp hchallenge with rfl | hchallenge
  · exact ⟨_, rfl⟩
  · obtain rfl := List.mem_singleton.mp hchallenge
    exact ⟨_, rfl⟩

/-- A `token68` with its padding, before a challenge that could be answered. -/
def negotiateHeader : HeaderSyntax where
  challenges :=
    [⟨[], "Negotiate".toList, .token68 " ".toList "abc".toList 2⟩,
      ⟨", ".toList, "Bearer".toList, .parameters
        [⟨" ".toList, "realm".toList, [], [], .quoted [.plain 'r']⟩]⟩]
  trailing := []

/-- Such a header is of the grammar, and none of it is read. -/
theorem negotiateHeader_is_dropped : negotiateHeader.Grammatical ∧
    String.ofList negotiateHeader.text = "Negotiate abc==, Bearer realm=\"r\"" ∧
      Challenge.parse (String.ofList negotiateHeader.text) = none := by
  refine ⟨⟨?_, by decide +kernel, by decide +kernel⟩, by decide +kernel, by decide +kernel⟩
  intro challenge hchallenge
  rcases List.mem_cons.mp hchallenge with rfl | hchallenge
  · exact ⟨by decide +kernel, by decide +kernel, ⟨by decide +kernel, by decide +kernel⟩, by decide +kernel, by decide +kernel⟩
  · obtain rfl := List.mem_singleton.mp hchallenge
    refine ⟨by decide +kernel, by decide +kernel, ?_, by decide +kernel, by decide +kernel, by decide +kernel⟩
    intro parameter hparameter
    obtain rfl := List.mem_singleton.mp hparameter
    refine ⟨by decide +kernel, by decide +kernel, by decide +kernel, by decide +kernel, ?_⟩
    intro piece hpiece
    obtain rfl := List.mem_singleton.mp hpiece
    decide

end Registry
end SaasFabric
