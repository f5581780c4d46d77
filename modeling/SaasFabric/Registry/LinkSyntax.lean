import SaasFabric.Registry.ChallengeSyntax
import SaasFabric.Registry.Link

/-!
# The grammar of a link header

A `Link` header is a list of links, each a target between angle brackets and the parameters after
it.  What the header's first next link is by that grammar is put beside what is read of its text.
-/

namespace SaasFabric
namespace Registry

open Cursor (toAsciiLowercase)

/-! ## A header as it is written -/

/-- A parameter's value, with the blanks around its `=`. -/
structure LinkValue where
  before : List Char
  after : List Char
  value : ValueSyntax
deriving DecidableEq

/-- A parameter, with the blanks around its semicolon.  A semicolon may be followed by none. -/
structure LinkParameter where
  ahead : List Char
  behind : List Char
  name : List Char
  value : Option LinkValue
deriving DecidableEq

namespace LinkParameter

/-- A parameter as it is written. -/
def text (parameter : LinkParameter) : List Char :=
  parameter.ahead ++ ';' :: (parameter.behind ++ (parameter.name ++
    match parameter.value with
    | none => []
    | some value => value.before ++ '=' :: (value.after ++ value.value.text)))

/-- Each part of a parameter is what it should be. -/
structure WellFormed (parameter : LinkParameter) : Prop where
  ahead : IsBlank parameter.ahead
  behind : IsBlank parameter.behind
  name : IsToken parameter.name ∨ parameter.name = [] ∧ parameter.value = none
  value : ∀ value ∈ parameter.value,
    IsBlank value.before ∧ IsBlank value.after ∧ value.value.WellFormed

/-- The value that is meant, which is empty where there is none. -/
def content (parameter : LinkParameter) : List Char :=
  (parameter.value.map fun value => value.value.content).getD []

end LinkParameter

/-- The relation types a `rel` value lists. -/
def relationTypes (value : List Char) : List (List Char) :=
  (value.splitOnP fun c => [' ', '\t'].contains c).filter (· ≠ [])

/-- A link, with the gap before it. -/
structure LinkSyntax where
  gap : List Char
  target : List Char
  parameters : List LinkParameter
deriving DecidableEq

namespace LinkSyntax

/-- The text of a link's parameters. -/
def parametersText (link : LinkSyntax) : List Char := link.parameters.flatMap LinkParameter.text

/-- A link as it is written, but for the gap before it. -/
def body (link : LinkSyntax) : List Char := '<' :: (link.target ++ '>' :: link.parametersText)

/-- A link as it is written. -/
def text (link : LinkSyntax) : List Char := link.gap ++ link.body

/-- A target holds no angle bracket, whatever else it holds. -/
structure Grammatical (link : LinkSyntax) : Prop where
  gap : IsGap link.gap
  target : ∀ c ∈ link.target, c ≠ '<' ∧ c ≠ '>'
  parameters : ∀ parameter ∈ link.parameters, parameter.WellFormed

/-- Whether a link's first `rel` lists `next`, in any case of either. -/
def namesNext (link : LinkSyntax) : Bool :=
  (link.parameters.find? fun parameter => toAsciiLowercase parameter.name = "rel").any
    fun parameter => (relationTypes parameter.content).any
      fun relation => toAsciiLowercase relation = "next"

end LinkSyntax

/-- The target of the first link that is a next one. -/
def nextOf (links : List LinkSyntax) : Option (List Char) :=
  (links.find? LinkSyntax.namesNext).map LinkSyntax.target

/-- A header line: links, and a gap at the end. -/
structure LinksSyntax where
  links : List LinkSyntax
  trailing : List Char
deriving DecidableEq

namespace LinksSyntax

/-- A line as it is written. -/
def text (line : LinksSyntax) : List Char :=
  line.links.flatMap LinkSyntax.text ++ line.trailing

/-- Links, set off by commas. -/
structure Grammatical (line : LinksSyntax) : Prop where
  links : ∀ link ∈ line.links, link.Grammatical
  separated : ∀ later ∈ line.links.tail, ',' ∈ later.gap
  trailing : IsGap line.trailing

end LinksSyntax

/-! ## What is read of a link

A text is cut at its commas before its brackets and quotes are looked at. -/

namespace LinkSyntax

/-- The parameters a cut at the first comma leaves with the target. -/
def shown (link : LinkSyntax) : List Char := link.parametersText.takeWhile (· != ',')

/-- What such cuts make of the rest of the parameters. -/
def strays (link : LinkSyntax) : List (List Char) := (link.parametersText.splitOn ',').tail

/-- A link is heard as the next one: it is not cut within its target, and the parameters that are
left with it say so. -/
def Heard (link : LinkSyntax) : Prop := ',' ∉ link.target ∧ Link.isNext link.shown = true

instance (link : LinkSyntax) : Decidable link.Heard := inferInstanceAs (Decidable (_ ∧ _))

/-- Nothing of a link is taken for a next link, no quoted text in it either. -/
def Silent (link : LinkSyntax) : Prop :=
  ¬ link.Heard ∧ ∀ stray ∈ link.strays, Link.readLink stray = none

instance (link : LinkSyntax) : Decidable link.Silent := inferInstanceAs (Decidable (_ ∧ _))

/-- What is read of a link. -/
def read (link : LinkSyntax) : Option (List Char) :=
  if link.Heard then some link.target else link.strays.findSome? Link.readLink

end LinkSyntax

/-- Links are read as they are written as far as the first next one: that one is heard, and
nothing before it. -/
def ReadAsWritten : List LinkSyntax → Prop
  | [] => True
  | link :: rest =>
      if link.namesNext then link.Heard else link.Silent ∧ ReadAsWritten rest

instance decidableReadAsWritten : (links : List LinkSyntax) → Decidable (ReadAsWritten links)
  | [] => isTrue trivial
  | link :: rest =>
      have := decidableReadAsWritten rest
      inferInstanceAs (Decidable (if link.namesNext then link.Heard
        else link.Silent ∧ ReadAsWritten rest))

namespace Link

/-! ## Blanks at either end -/

theorem isWhitespace_of_mem_blank {c : Char} (h : c ∈ [' ', '\t']) : isWhitespace c = true := by
  simp only [List.mem_cons, List.not_mem_nil, or_false] at h
  rcases h with rfl | rfl <;> decide

theorem trim_cons {c : Char} (h : isWhitespace c = true) (text : List Char) :
    trim (c :: text) = trim text := by
  unfold trim
  rw [List.dropWhile_cons_of_pos h]

theorem trim_concat {c : Char} (h : isWhitespace c = true) (text : List Char) :
    trim (text ++ [c]) = trim text := by
  unfold trim
  rw [List.dropWhile_append]
  split
  · next hempty =>
      rw [List.isEmpty_iff.mp hempty, List.dropWhile_cons_of_pos h]
      rfl
  · exact List.rdropWhile_concat_pos _ _ _ h

theorem trim_append {blank : List Char} (h : ∀ c ∈ blank, isWhitespace c = true)
    (text : List Char) : trim (text ++ blank) = trim text := by
  induction blank generalizing text with
  | nil => rw [List.append_nil]
  | cons c blank ih =>
      have hstep := ih (fun d hd => h d (List.mem_cons_of_mem c hd)) (text ++ [c])
      rw [List.append_assoc] at hstep
      exact hstep.trans (trim_concat (h c List.mem_cons_self) text)

/-- The last piece of a text goes on with what is put after the text. -/
theorem splitOn_append_last {separator : Char} {after : List Char} (h : separator ∉ after)
    (text : List Char) : ∃ pieces last, text.splitOn separator = pieces ++ [last] ∧
      (text ++ after).splitOn separator = pieces ++ [last ++ after] := by
  induction text with
  | nil => exact ⟨[], [], List.splitOn_nil _, List.splitOn_eq_singleton h⟩
  | cons c text ih =>
      obtain ⟨pieces, last, htext, happend⟩ := ih
      rw [List.cons_append, List.splitOn_cons_eq_if_modifyHead,
        List.splitOn_cons_eq_if_modifyHead, htext, happend]
      split
      · exact ⟨[] :: pieces, last, rfl, rfl⟩
      · cases pieces with
        | nil => exact ⟨[], c :: last, rfl, rfl⟩
        | cons first pieces => exact ⟨(c :: first) :: pieces, last, rfl, rfl⟩

/-- Blanks after the parameters say nothing. -/
theorem isNext_append {blank : List Char} (h : ∀ c ∈ blank, isWhitespace c = true)
    (parameters : List Char) : isNext (parameters ++ blank) = isNext parameters := by
  have hseparator : ';' ∉ blank := fun hmem => absurd (h _ hmem) (by decide)
  obtain ⟨pieces, last, htext, happend⟩ := splitOn_append_last hseparator parameters
  have hlast : relIsNext (last ++ blank) = relIsNext last := by
    unfold relIsNext
    rw [trim_append h]
  unfold isNext
  rw [htext, happend, List.any_append, List.any_append]
  simp only [List.any_cons, List.any_nil, hlast]

/-- Blanks that are trimmed off the parameters said nothing. -/
theorem isNext_rdropWhile (parameters : List Char) :
    isNext (parameters.rdropWhile isWhitespace) = isNext parameters := by
  have hsplit := List.rdropWhile_append_rtakeWhile (p := isWhitespace) (l := parameters)
  have hblank : ∀ c ∈ parameters.rtakeWhile isWhitespace, isWhitespace c = true :=
    fun c hc => List.mem_rtakeWhile_imp hc
  calc isNext (parameters.rdropWhile isWhitespace)
      = isNext (parameters.rdropWhile isWhitespace ++ parameters.rtakeWhile isWhitespace) :=
        (isNext_append hblank _).symm
    _ = isNext parameters := by rw [hsplit]

theorem readLink_trim {text text' : List Char} (h : trim text = trim text') :
    readLink text = readLink text' := by
  unfold readLink
  rw [h]

/-! ## A text, cut at its commas -/

theorem targetOf_comma (before after : List Char) :
    targetOf (before ++ ',' :: after) = (targetOf before).or (targetOf after) := by
  unfold targetOf
  rw [List.splitOn_append_cons_self, List.findSome?_append]

theorem targetOf_of_notMem {text : List Char} (h : ',' ∉ text) :
    targetOf text = readLink text := by
  unfold targetOf
  rw [List.splitOn_eq_singleton h, List.findSome?_singleton]

theorem targetOf_nil : targetOf [] = none := rfl

theorem targetOf_cons {c : Char} (h : isWhitespace c = true) (text : List Char) :
    targetOf (c :: text) = targetOf text := by
  have hcomma : (c == ',') = false := by
    rw [beq_eq_false_iff_ne]
    rintro rfl
    exact absurd h (by decide)
  obtain ⟨first, rest, hsplit⟩ := List.exists_cons_of_ne_nil (List.splitOn_ne_nil ',' text)
  unfold targetOf
  rw [List.splitOn_cons_eq_if_modifyHead, hcomma, hsplit]
  simp only [Bool.false_eq_true, if_false, List.modifyHead_cons, List.findSome?_cons]
  rw [readLink_trim (trim_cons h first)]

theorem targetOf_concat {c : Char} (h : isWhitespace c = true) (text : List Char) :
    targetOf (text ++ [c]) = targetOf text := by
  have hcomma : ',' ∉ [c] := by
    rw [List.mem_singleton]
    rintro rfl
    exact absurd h (by decide)
  obtain ⟨pieces, last, htext, happend⟩ := splitOn_append_last hcomma text
  unfold targetOf
  rw [htext, happend, List.findSome?_append, List.findSome?_append, List.findSome?_singleton,
    List.findSome?_singleton, readLink_trim (trim_concat h last)]

/-- A gap ahead of a text says nothing. -/
theorem targetOf_gap {gap : List Char} (h : IsGap gap) (text : List Char) :
    targetOf (gap ++ text) = targetOf text := by
  induction gap with
  | nil => rfl
  | cons c gap ih =>
      have hrest := ih fun d hd => h d (List.mem_cons_of_mem c hd)
      rw [List.cons_append]
      rcases List.mem_cons.mp (h c List.mem_cons_self) with rfl | hblank
      · calc targetOf (',' :: (gap ++ text))
            = (targetOf []).or (targetOf (gap ++ text)) := targetOf_comma [] _
          _ = targetOf text := by rw [targetOf_nil, Option.none_or, hrest]
      · exact (targetOf_cons (isWhitespace_of_mem_blank hblank) _).trans hrest

/-- A gap after a text says nothing. -/
theorem targetOf_trailing {gap : List Char} (h : IsGap gap) (text : List Char) :
    targetOf (text ++ gap) = targetOf text := by
  induction gap generalizing text with
  | nil => rw [List.append_nil]
  | cons c gap ih =>
      have hgap : IsGap gap := fun d hd => h d (List.mem_cons_of_mem c hd)
      rcases List.mem_cons.mp (h c List.mem_cons_self) with rfl | hblank
      · have hnone : targetOf gap = none := by
          rw [← List.append_nil gap, targetOf_gap hgap, targetOf_nil]
        rw [targetOf_comma, hnone, Option.or_none]
      · have hstep := ih hgap (text ++ [c])
        rw [List.append_assoc] at hstep
        exact hstep.trans (targetOf_concat (isWhitespace_of_mem_blank hblank) text)

/-- Across a gap with a comma in it two texts are read one after the other. -/
theorem targetOf_between {gap : List Char} (h : IsGap gap) (hcomma : ',' ∈ gap)
    (before after : List Char) :
    targetOf (before ++ (gap ++ after)) = (targetOf before).or (targetOf after) := by
  obtain ⟨first, second, rfl, -⟩ := List.eq_append_cons_of_mem hcomma
  have hfirst : IsGap first := fun c hc => h c (List.mem_append_left _ hc)
  have hsecond : IsGap second := fun c hc =>
    h c (List.mem_append_right _ (List.mem_cons_of_mem _ hc))
  rw [List.append_assoc, List.cons_append, ← List.append_assoc, targetOf_comma,
    targetOf_trailing hfirst, targetOf_gap hsecond]

/-! ## One link -/

theorem splitTarget_append {target : List Char} (h : '>' ∉ target) (after : List Char) :
    splitTarget (target ++ '>' :: after) = some (target, after) := by
  have hpos : ∀ c ∈ target, (c != '>') = true := fun c hc => bne_iff_ne.mpr fun heq => h (heq ▸ hc)
  unfold splitTarget
  rw [List.dropWhile_append_of_pos hpos, List.takeWhile_append_of_pos hpos]
  simp

theorem splitTarget_of_notMem {text : List Char} (h : '>' ∉ text) : splitTarget text = none := by
  have hall : text.dropWhile (· != '>') = [] :=
    List.dropWhile_eq_nil_iff.mpr fun c hc => bne_iff_ne.mpr fun heq => h (heq ▸ hc)
  unfold splitTarget
  rw [hall]

/-- The first character that is no blank is the first of what is trimmed. -/
theorem head_trim {text : List Char} {c : Char} (h : c ∈ (trim text).head?) :
    c ∈ (text.dropWhile isWhitespace).head? := by
  obtain ⟨rest, hrest⟩ := List.rdropWhile_prefix isWhitespace (text.dropWhile isWhitespace)
  rw [← hrest, List.head?_append]
  change c ∈ ((trim text).head?).or rest.head?
  rw [Option.mem_def] at h
  rw [h]
  rfl

/-- What does not begin with an angle bracket is no link. -/
theorem readLink_eq_none {text : List Char}
    (h : ∀ c ∈ (text.dropWhile isWhitespace).head?, c ≠ '<') : readLink text = none := by
  unfold readLink
  split
  · next rest htrim =>
      have hhead : '<' ∈ (trim text).head? := by
        rw [htrim]
        rfl
      exact absurd rfl (h '<' (head_trim hhead))
  · rfl

/-- A text of which no character is an angle bracket begins with none, whatever is after it. -/
theorem head_dropWhile_append {target after : List Char} (h : ∀ c ∈ target, c ≠ '<')
    (hafter : ∀ c ∈ (after.dropWhile isWhitespace).head?, c ≠ '<') :
    ∀ c ∈ ((target ++ after).dropWhile isWhitespace).head?, c ≠ '<' := by
  intro c hc
  rw [List.dropWhile_append] at hc
  split at hc
  · exact hafter c hc
  · next hne =>
      cases hfirst : target.dropWhile isWhitespace with
      | nil => exact absurd (List.isEmpty_iff.mpr hfirst) hne
      | cons first rest =>
          rw [hfirst] at hc
          cases hc
          refine h c ((List.dropWhile_suffix isWhitespace).subset ?_)
          rw [hfirst]
          exact List.mem_cons_self

/-- Blanks are only trimmed as far as the last character that is none. -/
theorem rdropWhile_append_cons {c : Char} (h : isWhitespace c = false) (before after : List Char) :
    (before ++ c :: after).rdropWhile isWhitespace =
      before ++ c :: after.rdropWhile isWhitespace := by
  induction after using List.reverseRecOn with
  | nil =>
      rw [List.rdropWhile_nil]
      exact List.rdropWhile_concat_neg _ _ _ (by simp [h])
  | append_singleton after last ih =>
      rw [← List.cons_append, ← List.append_assoc, List.rdropWhile_concat, List.rdropWhile_concat]
      split
      · exact ih
      · rw [List.append_assoc, List.cons_append]

/-- The piece that holds a target and what is left of its parameters. -/
theorem readLink_link {target : List Char} (h : '>' ∉ target) (parameters : List Char) :
    readLink ('<' :: (target ++ '>' :: parameters)) =
      if isNext parameters then some target else none := by
  have htrim : trim ('<' :: (target ++ '>' :: parameters)) =
      '<' :: (target ++ '>' :: parameters.rdropWhile isWhitespace) := by
    unfold trim
    rw [List.dropWhile_cons_of_neg (by decide), ← List.cons_append, ← List.cons_append]
    exact rdropWhile_append_cons (by decide) _ _
  unfold readLink
  rw [htrim]
  change (splitTarget (target ++ '>' :: parameters.rdropWhile isWhitespace)).bind _ = _
  rw [splitTarget_append h, Option.bind_some]
  change (if isNext (parameters.rdropWhile isWhitespace) then some target else none) = _
  rw [isNext_rdropWhile]

/-- A comma among the parameters ends what is shown of them. -/
theorem shown_of_comma {link : LinkSyntax} {first more : List Char}
    (h : link.parametersText = first ++ ',' :: more) (hfirst : ',' ∉ first) :
    link.shown = first ∧ link.strays = more.splitOn ',' := by
  have hpos : ∀ c ∈ first, (c != ',') = true := by
    intro c hc
    rw [bne_iff_ne]
    rintro rfl
    exact hfirst hc
  unfold LinkSyntax.shown LinkSyntax.strays
  rw [h, List.takeWhile_append_of_pos hpos, List.splitOn_append_cons_self_of_not_mem hfirst]
  simp

/-- Without a comma all parameters are shown. -/
theorem shown_of_notMem {link : LinkSyntax} (h : ',' ∉ link.parametersText) :
    link.shown = link.parametersText ∧ link.strays = [] := by
  unfold LinkSyntax.shown LinkSyntax.strays
  rw [List.splitOn_eq_singleton h]
  refine ⟨List.takeWhile_eq_self_iff.mpr fun c hc => bne_iff_ne.mpr ?_, rfl⟩
  rintro rfl
  exact h hc

/-- Past a comma in its target a link is no link, and its strays are all that is left. -/
theorem targetOf_cut {target : List Char} (h : ∀ c ∈ target, c ≠ '<') (link : LinkSyntax) :
    targetOf (target ++ '>' :: link.parametersText) = link.strays.findSome? readLink := by
  have hbracket : ∀ text : List Char,
      ∀ c ∈ (('>' :: text).dropWhile isWhitespace).head?, c ≠ '<' := by
    intro text c hc
    rw [List.dropWhile_cons_of_neg (by decide)] at hc
    cases hc
    decide
  induction hlength : target.length using Nat.strongRecOn generalizing target with
  | ind length ih =>
      by_cases hcomma : ',' ∈ target
      · obtain ⟨first, rest, rfl, hfirst⟩ := List.eq_append_cons_of_mem hcomma
        have hnone : readLink first = none := by
          refine readLink_eq_none ?_
          rw [← List.append_nil first]
          exact head_dropWhile_append (fun c hc => h c (List.mem_append_left _ hc)) nofun
        rw [List.append_assoc, List.cons_append, targetOf_comma, targetOf_of_notMem hfirst, hnone,
          Option.none_or]
        refine ih rest.length ?_ (fun c hc =>
          h c (List.mem_append_right _ (List.mem_cons_of_mem _ hc))) rfl
        rw [← hlength, List.length_append, List.length_cons]
        omega
      · -- The bracket stands in the first piece, which does not begin with the other one.
        by_cases hmore : ',' ∈ link.parametersText
        · obtain ⟨shown, more, hparameters, hshown⟩ := List.eq_append_cons_of_mem hmore
          have hnotMem : ',' ∉ target ++ '>' :: shown := by
            simp only [List.mem_append, List.mem_cons, not_or]
            exact ⟨hcomma, by decide, hshown⟩
          have htext : target ++ '>' :: (shown ++ ',' :: more) =
              (target ++ '>' :: shown) ++ ',' :: more := by simp
          rw [(shown_of_comma hparameters hshown).2, hparameters, htext, targetOf_comma,
            targetOf_of_notMem hnotMem,
            readLink_eq_none (head_dropWhile_append h (hbracket shown)), Option.none_or]
          rfl
        · have hnotMem : ',' ∉ target ++ '>' :: link.parametersText := by
            simp only [List.mem_append, List.mem_cons, not_or]
            exact ⟨hcomma, by decide, hmore⟩
          rw [(shown_of_notMem hmore).2, targetOf_of_notMem hnotMem,
            readLink_eq_none (head_dropWhile_append h (hbracket link.parametersText))]
          rfl

/-- What is read of a link's text. -/
theorem targetOf_body {link : LinkSyntax} (h : link.Grammatical) :
    targetOf link.body = link.read := by
  have hclose : '>' ∉ link.target := fun hmem => (h.target _ hmem).2 rfl
  unfold LinkSyntax.body LinkSyntax.read
  by_cases hcomma : ',' ∈ link.target
  · rw [if_neg fun hheard => hheard.1 hcomma]
    obtain ⟨first, rest, htarget, hfirst⟩ := List.eq_append_cons_of_mem hcomma
    have hnone : readLink ('<' :: first) = none := by
      have htrim : ∃ rest, trim ('<' :: first) = '<' :: rest ∧ '>' ∉ rest := by
        refine ⟨first.rdropWhile isWhitespace, ?_, fun hmem => hclose ?_⟩
        · unfold trim
          rw [List.dropWhile_cons_of_neg (by decide)]
          exact rdropWhile_append_cons (by decide) [] first
        · rw [htarget]
          exact List.mem_append_left _ ((List.rdropWhile_prefix _ _).subset hmem)
      obtain ⟨trimmed, htrim, hnotMem⟩ := htrim
      unfold readLink
      rw [htrim]
      change (splitTarget trimmed).bind _ = _
      rw [splitTarget_of_notMem hnotMem, Option.bind_none]
    have hpiece : ',' ∉ '<' :: first := by
      rw [List.mem_cons, not_or]
      exact ⟨by decide, hfirst⟩
    have htext : '<' :: (link.target ++ '>' :: link.parametersText) =
        ('<' :: first) ++ ',' :: (rest ++ '>' :: link.parametersText) := by
      rw [htarget]
      simp
    rw [htext, targetOf_comma, targetOf_of_notMem hpiece, hnone, Option.none_or]
    refine targetOf_cut (fun c hc => (h.target c ?_).1) link
    rw [htarget]
    exact List.mem_append_right _ (List.mem_cons_of_mem _ hc)
  · have hpiece : ∀ shown : List Char, ',' ∉ shown →
        ',' ∉ '<' :: (link.target ++ '>' :: shown) := by
      intro shown hshown
      simp only [List.mem_append, List.mem_cons, not_or]
      exact ⟨by decide, hcomma, by decide, hshown⟩
    by_cases hmore : ',' ∈ link.parametersText
    · obtain ⟨first, more, hparameters, hfirst⟩ := List.eq_append_cons_of_mem hmore
      obtain ⟨hshown, hstrays⟩ := shown_of_comma hparameters hfirst
      have htext : '<' :: (link.target ++ '>' :: (first ++ ',' :: more)) =
          ('<' :: (link.target ++ '>' :: first)) ++ ',' :: more := by simp
      rw [hparameters, htext, targetOf_comma, targetOf_of_notMem (hpiece first hfirst),
        readLink_link hclose, hstrays]
      by_cases hnext : isNext first = true
      · rw [if_pos hnext, if_pos ⟨hcomma, hshown ▸ hnext⟩, Option.some_or]
      · rw [if_neg hnext, if_neg fun hheard => hnext (hshown ▸ hheard.2), Option.none_or]
        rfl
    · obtain ⟨hshown, hstrays⟩ := shown_of_notMem hmore
      rw [targetOf_of_notMem (hpiece _ hmore), readLink_link hclose, hstrays]
      by_cases hnext : isNext link.parametersText = true
      · rw [if_pos hnext, if_pos ⟨hcomma, hshown.symm ▸ hnext⟩]
      · rw [if_neg hnext, if_neg fun hheard => hnext (hshown ▸ hheard.2)]
        rfl

/-! ## A whole header -/

theorem targetOf_links {links : List LinkSyntax} {trailing : List Char}
    (hlinks : ∀ link ∈ links, link.Grammatical) (hseparated : ∀ later ∈ links.tail, ',' ∈ later.gap)
    (htrailing : IsGap trailing) :
    targetOf (links.flatMap LinkSyntax.text ++ trailing) = links.findSome? LinkSyntax.read := by
  induction links with
  | nil =>
      calc targetOf ([] ++ trailing) = targetOf [] := targetOf_trailing htrailing []
        _ = none := targetOf_nil
  | cons link rest ih =>
      have hlink := hlinks link List.mem_cons_self
      have hrest := ih (fun later hlater => hlinks later (List.mem_cons_of_mem _ hlater))
        fun later hlater => hseparated later (List.mem_of_mem_tail hlater)
      rw [List.flatMap_cons, List.findSome?_cons, ← hrest, ← targetOf_body hlink]
      unfold LinkSyntax.text
      rw [List.append_assoc, List.append_assoc, targetOf_gap hlink.gap]
      cases rest with
      | nil =>
          have hnone : targetOf trailing = none := by
            rw [← List.append_nil trailing, targetOf_gap htrailing, targetOf_nil]
          rw [List.flatMap_nil, List.nil_append, targetOf_trailing htrailing, hnone]
          cases targetOf link.body <;> rfl
      | cons next rest =>
          have hnext := hlinks next (List.mem_cons_of_mem _ List.mem_cons_self)
          have hcomma := hseparated next List.mem_cons_self
          rw [List.flatMap_cons, List.append_assoc, List.append_assoc, targetOf_between hnext.gap hcomma]
          rw [targetOf_gap hnext.gap]
          cases targetOf link.body <;> rfl

end Link

/-- A header's next target is what is read of its links, one after the other. -/
theorem nextTarget_text {line : LinksSyntax} (h : line.Grammatical) :
    nextTarget (String.ofList line.text) =
      (line.links.findSome? LinkSyntax.read).map String.ofList := by
  unfold nextTarget LinksSyntax.text
  rw [String.toList_ofList, Link.targetOf_links h.links h.separated h.trailing]

theorem LinkSyntax.Silent.read {link : LinkSyntax} (h : link.Silent) : link.read = none := by
  unfold LinkSyntax.read
  rw [if_neg h.1, List.findSome?_eq_none_iff]
  exact h.2

/-- Links that are read as they are written name what they mean. -/
theorem findSome_read {links : List LinkSyntax} (h : ReadAsWritten links) :
    links.findSome? LinkSyntax.read = nextOf links := by
  induction links with
  | nil => rfl
  | cons link rest ih =>
      unfold ReadAsWritten at h
      unfold nextOf
      rw [List.findSome?_cons, List.find?_cons]
      split at h
      · next hnext =>
          rw [hnext]
          unfold LinkSyntax.read
          rw [if_pos h]
          rfl
      · next hnext =>
          rw [Bool.not_eq_true] at hnext
          rw [hnext, h.1.read]
          exact ih h.2

/-! ## What is read amiss

Where links are not read as they are written, what is read is no link's target, or another
link's, or a stray's: it is the right one only where the text of the right one stands there as
well. -/

/-- The targets that stand in the text of a link, or are taken for one. -/
def LinkSyntax.places (link : LinkSyntax) : List (List Char) :=
  link.target :: link.strays.filterMap Link.readLink

/-- The next link's target stands nowhere else in the header. -/
def NamedOnce (links : List LinkSyntax) : Prop :=
  ∀ target ∈ nextOf links, (links.flatMap LinkSyntax.places).count target ≤ 1

theorem LinkSyntax.mem_places {link : LinkSyntax} {target : List Char}
    (h : link.read = some target) : target ∈ link.places := by
  unfold LinkSyntax.read at h
  split at h
  · cases h
    exact List.mem_cons_self
  · obtain ⟨stray, hstray, hread⟩ := List.exists_of_findSome?_eq_some h
    exact List.mem_cons_of_mem _ (List.mem_filterMap.mpr ⟨stray, hstray, hread⟩)

theorem mem_places_of_findSome {links : List LinkSyntax} {target : List Char}
    (h : links.findSome? LinkSyntax.read = some target) :
    target ∈ links.flatMap LinkSyntax.places := by
  obtain ⟨link, hlink, hread⟩ := List.exists_of_findSome?_eq_some h
  exact List.mem_flatMap.mpr ⟨link, hlink, link.mem_places hread⟩

theorem mem_places_of_nextOf {links : List LinkSyntax} {target : List Char}
    (h : nextOf links = some target) : target ∈ links.flatMap LinkSyntax.places := by
  obtain ⟨link, hlink, rfl⟩ := Option.map_eq_some_iff.mp h
  exact List.mem_flatMap.mpr ⟨link, List.mem_of_find?_eq_some hlink, List.mem_cons_self⟩

theorem LinkSyntax.silent_of_read {link : LinkSyntax} (h : link.read = none) : link.Silent := by
  unfold LinkSyntax.read at h
  split at h
  · cases h
  · next hheard => exact ⟨hheard, List.findSome?_eq_none_iff.mp h⟩

/-- What is named is named at the right place only where links are read as they are written. -/
theorem readAsWritten_of_findSome {links : List LinkSyntax} (honce : NamedOnce links)
    (h : links.findSome? LinkSyntax.read = nextOf links) : ReadAsWritten links := by
  induction links with
  | nil => trivial
  | cons link rest ih =>
      -- A target that stands in two of the links' texts stands there twice.
      have htwice : ∀ target ∈ nextOf (link :: rest), target ∈ link.places →
          target ∉ rest.flatMap LinkSyntax.places := by
        intro target htarget hfirst hrest
        have hone := honce target htarget
        have hcount := List.count_pos_iff.mpr hfirst
        have hcount' := List.count_pos_iff.mpr hrest
        rw [List.flatMap_cons, List.count_append] at hone
        omega
      unfold ReadAsWritten
      split
      · next hnext =>
          have hnamed : nextOf (link :: rest) = some link.target := by
            unfold nextOf
            rw [List.find?_cons, hnext]
            rfl
          by_contra hheard
          rw [hnamed, List.findSome?_cons] at h
          cases hread : link.read with
          | none =>
              rw [hread] at h
              exact htwice _ hnamed List.mem_cons_self (mem_places_of_findSome h)
          | some target =>
              rw [hread] at h
              cases h
              -- It is read of a stray of the link itself.
              unfold LinkSyntax.read at hread
              rw [if_neg hheard] at hread
              obtain ⟨stray, hstray, hread⟩ := List.exists_of_findSome?_eq_some hread
              have hmem := List.mem_filterMap.mpr ⟨stray, hstray, hread⟩
              have hone := honce _ hnamed
              have hcount := List.count_pos_iff.mpr hmem
              rw [List.flatMap_cons, List.count_append] at hone
              unfold LinkSyntax.places at hone
              rw [List.count_cons_self] at hone
              omega
      · next hnext =>
          rw [Bool.not_eq_true] at hnext
          have hnamed : nextOf (link :: rest) = nextOf rest := by
            unfold nextOf
            rw [List.find?_cons, hnext]
          rw [hnamed, List.findSome?_cons] at h
          have hread : link.read = none := by
            cases hread : link.read with
            | none => rfl
            | some target =>
                rw [hread] at h
                exact absurd (mem_places_of_nextOf h.symm)
                  (htwice target (hnamed.trans h.symm) (link.mem_places hread))
          rw [hread] at h
          refine ⟨LinkSyntax.silent_of_read hread, ih (fun target htarget => ?_) h⟩
          have hone := honce target (hnamed ▸ htarget)
          rw [List.flatMap_cons, List.count_append] at hone
          omega

end Registry
end SaasFabric
