import Mathlib.Data.List.TakeWhile
import SaasFabric.Library.Blocks
import SaasFabric.Library.Fallible
import SaasFabric.PlatformGit.Overlay

/-!
# What a rewritten overlay says

The lines of an overlay are entries and what is outside them.  Rewriting a repository's entry
leaves one entry of it, with the tag and the digest it was given; the entry of another
repository stays, unless it stood among the lines that were replaced.
-/

namespace SaasFabric
namespace PlatformGit

open Library

/-! ## Lines and text -/

/-- What can stand on a line and be read back from it. -/
def FitsLine (line : TextLine) : Prop := '\n' ∉ line ∧ line.getLast? ≠ some '\r'

/-- A text of whole lines, each ended by a line feed alone. -/
def LineFed (text : String) : Prop :=
  ∃ lines : List TextLine, (∀ line ∈ lines, FitsLine line) ∧ text.toList = unlines lines

theorem splitInclusive_append {line rest : List Char} (h : '\n' ∉ line) :
    Text.splitInclusive (line ++ '\n' :: rest) =
      (line ++ ['\n']) :: Text.splitInclusive rest := by
  induction line with
  | nil => simp [Text.splitInclusive]
  | cons c line ih =>
      simp only [List.mem_cons, not_or] at h
      rw [List.cons_append, Text.splitInclusive, if_neg (Ne.symm h.1), ih h.2]
      rfl

theorem splitInclusive_unlines {lines : List TextLine} (h : ∀ line ∈ lines, '\n' ∉ line) :
    Text.splitInclusive (unlines lines) = lines.map (· ++ ['\n']) := by
  induction lines with
  | nil => rfl
  | cons line lines ih =>
      rw [unlines, List.flatMap_cons, List.append_assoc, List.singleton_append,
        splitInclusive_append (h line List.mem_cons_self)]
      rw [← unlines, ih fun other hother => h other (List.mem_cons_of_mem _ hother), List.map_cons]

theorem unterminate_lineFeed {line : TextLine} (h : line.getLast? ≠ some '\r') :
    Text.unterminate (line ++ ['\n']) = (line, ['\n']) := by
  have hreverse : (line ++ ['\n']).reverse = '\n' :: line.reverse := by simp
  unfold Text.unterminate
  rw [hreverse]
  cases hline : line.reverse with
  | nil => simp [List.reverse_eq_nil_iff.mp hline]
  | cons c rest =>
      have hlast : line.getLast? = some c := by
        rw [← List.head?_reverse, hline]
        rfl
      have hc : c ≠ '\r' := fun hc => h (by rw [hlast, hc])
      have hback : line = (c :: rest).reverse := by rw [← hline, List.reverse_reverse]
      split
      · rename_i body heq
        cases heq
        exact absurd rfl hc
      · rename_i body _ heq
        cases heq
        rw [hback]
      · rename_i hnot
        exact absurd rfl (hnot _)

theorem lines_unlines {lines : List TextLine} (h : ∀ line ∈ lines, FitsLine line) :
    Text.lines (String.ofList (unlines lines)) = lines := by
  rw [Text.lines, String.toList_ofList, splitInclusive_unlines fun line hline => (h line hline).1,
    List.map_map]
  conv => rhs; rw [← List.map_id lines]
  apply List.map_congr_left
  intro line hline
  simp [unterminate_lineFeed (h line hline).2]

theorem LineFed.lines {text : String} (h : LineFed text) :
    (∀ line ∈ Text.lines text, FitsLine line) ∧ text = String.ofList (unlines (Text.lines text)) := by
  obtain ⟨lines, hfits, htext⟩ := h
  have hback : text = String.ofList (unlines lines) := by
    rw [← htext, String.ofList_toList]
  have hlines : Text.lines text = lines := by rw [hback, lines_unlines hfits]
  rw [hlines]
  exact ⟨hfits, hback⟩

/-! ## Entries -/

theorem dropWhile_whitespace_continuation (line rest : TextLine) :
    (continuation line ++ rest).dropWhile isWhitespace = rest.dropWhile isWhitespace := by
  apply List.dropWhile_append_of_pos
  intro c hc
  rcases List.mem_append.mp hc with hindent | hspaces
  · exact List.mem_takeWhile_imp hindent
  · have hspace : c = ' ' := by simpa using hspaces
    rw [hspace]
    rfl

theorem keyLine_eq (line : TextLine) (key value : String) :
    keyLine line key value = continuation line ++ (key.toList ++ [':', ' '] ++ value.toList) := by
  simp [keyLine]

theorem marker_eq_cons (repository : String) : ∃ rest, marker repository = '-' :: rest := by
  have hname : "- name: ".toList = ['-', ' ', 'n', 'a', 'm', 'e', ':', ' '] := by decide
  refine ⟨[' ', 'n', 'a', 'm', 'e', ':', ' '] ++ repository.toList, ?_⟩
  exact congrArg (· ++ repository.toList) hname

/-- A key of an entry: neither indentation nor the dash of another entry. -/
def IsKey (key : String) : Prop :=
  ∃ c rest, key.toList = c :: rest ∧ c ≠ '-' ∧ isWhitespace c = false

theorem isKey_newTag : IsKey "newTag" :=
  ⟨'n', ['e', 'w', 'T', 'a', 'g'], by decide, by decide, by decide⟩

theorem isKey_digest : IsKey "digest" :=
  ⟨'d', ['i', 'g', 'e', 's', 't'], by decide, by decide, by decide⟩

/-- A key line belongs to its entry. -/
theorem continues_keyLine {key : String} (hkey : IsKey key) (line : TextLine) (value : String) :
    continues line (keyLine line key value) = true := by
  obtain ⟨c, rest, hkey, hdash, -⟩ := hkey
  rw [keyLine_eq, continues, Bool.and_eq_true]
  constructor
  · exact List.isPrefixOf_iff_prefix.mpr (List.prefix_append _ _)
  · rw [List.drop_left, hkey]
    simpa using hdash

/-- A key line opens no entry. -/
theorem opensEntryOf_keyLine {key : String} (hkey : IsKey key) (repository : String)
    (line : TextLine) (value : String) :
    opensEntryOf repository (keyLine line key value) = false := by
  obtain ⟨c, rest, hkey, hdash, hspace⟩ := hkey
  have hline : (keyLine line key value).dropWhile isWhitespace =
      c :: (rest ++ [':', ' '] ++ value.toList) := by
    rw [keyLine_eq, dropWhile_whitespace_continuation, hkey, List.cons_append, List.cons_append,
      List.dropWhile_cons, if_neg (by simp [hspace])]
  obtain ⟨name, hname⟩ := marker_eq_cons repository
  rw [opensEntryOf, hline, hname, beq_eq_false_iff_ne]
  exact fun heq => hdash (List.cons.inj heq).1

theorem pinLines_continue (version digest : String) (line : TextLine) :
    ∀ other ∈ pinLines version digest line, continues line other = true := by
  intro other hother
  simp only [pinLines, List.mem_cons, List.not_mem_nil, or_false] at hother
  rcases hother with rfl | rfl
  · exact continues_keyLine isKey_newTag line version
  · exact continues_keyLine isKey_digest line digest

theorem pinLines_noEntry (version digest repository : String) (line : TextLine) :
    Blocks.NoEntry (opensEntryOf repository) (pinLines version digest line) := by
  intro other hother
  simp only [pinLines, List.mem_cons, List.not_mem_nil, or_false] at hother
  rcases hother with rfl | rfl
  · exact opensEntryOf_keyLine isKey_newTag repository line version
  · exact opensEntryOf_keyLine isKey_digest repository line digest

/-- A line opens the entry of one repository. -/
theorem repository_of_opensEntryOf {first second : String} {line : TextLine}
    (h : opensEntryOf first line = true) (h' : opensEntryOf second line = true) :
    first = second := by
  rw [opensEntryOf, beq_iff_eq] at h h'
  rw [h] at h'
  exact String.toList_inj.mp (List.append_cancel_left h')

/-- What is under a line of an entry is under the entry. -/
theorem continues_trans (first second third : TextLine) (h : continues first second = true)
    (h' : continues second third = true) : continues first third = true := by
  rw [continues, Bool.and_eq_true] at h h' ⊢
  have hstarts := List.isPrefixOf_iff_prefix.mp h.1
  -- The first continuation is indentation of the second line.
  have hindent : continuation first <+: indentOf second := by
    obtain ⟨rest, hrest⟩ := hstarts
    have hspaces : ∀ c ∈ continuation first, isWhitespace c = true := by
      intro c hc
      rcases List.mem_append.mp hc with hindent | hspaces
      · exact List.mem_takeWhile_imp hindent
      · have hspace : c = ' ' := by simpa using hspaces
        rw [hspace]
        rfl
    rw [indentOf, ← hrest, List.takeWhile_append_of_pos hspaces]
    exact List.prefix_append _ _
  obtain ⟨gap, hgap⟩ := hindent
  obtain ⟨rest, hrest⟩ := List.isPrefixOf_iff_prefix.mp h'.1
  have hthird : third = continuation first ++ (gap ++ [' ', ' '] ++ rest) := by
    rw [← hrest, continuation, ← hgap]
    simp
  constructor
  · rw [hthird]
    exact List.isPrefixOf_iff_prefix.mpr (List.prefix_append _ _)
  · rw [hthird, List.drop_left]
    cases gap with
    | nil => simp
    | cons c gap =>
        have hspace : isWhitespace c = true := by
          have hmem : c ∈ indentOf second := by
            rw [← hgap]
            simp
          exact List.mem_takeWhile_imp hmem
        have hdash : c ≠ '-' := by
          rintro rfl
          revert hspace
          decide
        simpa using hdash

theorem repinLines_eq (repository version digest : String) (opened : Option TextLine)
    (lines : List TextLine) : repinLines repository version digest opened lines =
      Blocks.rewrite (opensEntryOf repository) continues (pinLines version digest) opened lines := by
  induction lines generalizing opened with
  | nil => rfl
  | cons line lines ih => simp only [repinLines, Blocks.rewrite, ih]

/-! ## What a rewriting makes of a text -/

theorem not_mem_continuation {line : TextLine} (hline : FitsLine line) :
    '\n' ∉ continuation line := by
  intro hmem
  rcases List.mem_append.mp hmem with hindent | hspaces
  · exact hline.1 ((List.takeWhile_prefix _).subset hindent)
  · simp at hspaces

/-- A key line fits where the entry's line and the value do. -/
theorem fitsLine_keyLine {line : TextLine} {key value : String} (hline : FitsLine line)
    (hkey : '\n' ∉ key.toList) (hvalue : FitsLine value.toList) :
    FitsLine (keyLine line key value) := by
  constructor
  · simp only [keyLine, List.mem_append, not_or]
    exact ⟨⟨⟨not_mem_continuation hline, hkey⟩, by decide⟩, hvalue.1⟩
  · rw [keyLine, List.getLast?_append, List.getLast?_append]
    cases hlast : value.toList.getLast? with
    | none => simp
    | some c =>
        have hc : c ≠ '\r' := fun hc => hvalue.2 (by rw [hlast, hc])
        simpa using hc

theorem fitsLine_pinLines {version digest : String} {line : TextLine} (hline : FitsLine line)
    (hversion : FitsLine version.toList) (hdigest : FitsLine digest.toList) :
    ∀ other ∈ pinLines version digest line, FitsLine other := by
  intro other hother
  simp only [pinLines, List.mem_cons, List.not_mem_nil, or_false] at hother
  rcases hother with rfl | rfl
  · exact fitsLine_keyLine hline (by decide) hversion
  · exact fitsLine_keyLine hline (by decide) hdigest

/-- A rewritten overlay is the rewriting of its lines, and still a text of whole lines. -/
theorem repin_lines {text repository version digest rewritten : String} (hfed : LineFed text)
    (hversion : FitsLine version.toList) (hdigest : FitsLine digest.toList)
    (h : repin text repository version digest = .ok rewritten) :
    LineFed rewritten ∧
      Blocks.rewrite (opensEntryOf repository) continues (pinLines version digest) none
        (Text.lines text) = (Text.lines rewritten, 1) := by
  unfold repin at h
  rw [repinLines_eq] at h
  rcases hrewrite : Blocks.rewrite (opensEntryOf repository) continues (pinLines version digest)
    none (Text.lines text) with ⟨out, count⟩
  rw [hrewrite] at h
  dsimp only at h
  split at h
  · cases h
  · rename_i hcount
    have hcount : count = 1 := not_not.mp hcount
    subst hcount
    cases h
    have hfits : ∀ line ∈ out, FitsLine line := by
      obtain ⟨before, line, body, after, hlines, -, -, -, -, -, rfl⟩ :=
        Blocks.rewrite_one hrewrite
      have hkept := hfed.lines.1
      rw [hlines] at hkept
      intro other hother
      simp only [List.mem_append, List.mem_cons] at hother
      rcases hother with hmem | rfl | hmem | hmem
      · exact hkept other (by simp [hmem])
      · exact hkept other (by simp)
      · exact fitsLine_pinLines (hkept line (by simp)) hversion hdigest other hmem
      · exact hkept other (by simp [hmem])
    exact ⟨⟨out, hfits, String.toList_ofList⟩, by rw [lines_unlines hfits]⟩

/-! ## Reading an overlay back -/

/-- The value of a key of an entry. -/
def keyValue (line : TextLine) (key : String) (other : TextLine) : Option TextLine :=
  if (keyLine line key "").isPrefixOf other then some (other.drop (keyLine line key "").length)
  else none

/-- The tag and the digest of the only entry of a repository. -/
def readImage (repository text : String) : Option (TextLine × TextLine) :=
  match Blocks.entries (opensEntryOf repository) continues (Text.lines text) with
  | [(line, body)] =>
      (body.findSome? (keyValue line "newTag")).bind fun tag =>
        (body.findSome? (keyValue line "digest")).map fun digest => (tag, digest)
  | _ => none

/-- The lines of an overlay that belong to none of some repositories' entries, with what ended
each of them. -/
def linesOutside (repositories : List String) (text : String) : List TextLine :=
  Blocks.outside
    (fun raw => repositories.any fun repository => opensEntryOf repository (Text.unterminate raw).1)
    (fun raw next => continues (Text.unterminate raw).1 (Text.unterminate next).1) none
    (Text.splitInclusive text.toList)

theorem keyValue_keyLine (line : TextLine) (key value : String) :
    keyValue line key (keyLine line key value) = some value.toList := by
  have hsplit : keyLine line key value = keyLine line key "" ++ value.toList := by
    simp [keyLine]
  rw [keyValue, hsplit, if_pos (List.isPrefixOf_iff_prefix.mpr (List.prefix_append _ _)),
    List.drop_left]

theorem keyValue_newTag_digest (line : TextLine) (version : String) :
    keyValue line "digest" (keyLine line "newTag" version) = none := by
  rw [keyValue, if_neg]
  intro hstarts
  rw [keyLine_eq, keyLine_eq] at hstarts
  have hstart := (List.prefix_append_right_inj _).mp (List.isPrefixOf_iff_prefix.mp hstarts)
  obtain ⟨rest, hrest⟩ := hstart
  have hhead := congrArg List.head? hrest
  revert hhead
  simp

/-- One entry with the two keys it is rewritten to says the version and the digest. -/
theorem readImage_of_onlyEntry {repository version digest text : String} {line : TextLine}
    (h : Blocks.OnlyEntry (opensEntryOf repository) continues (Text.lines text) line
      (pinLines version digest line)) :
    readImage repository text = some (version.toList, digest.toList) := by
  rw [readImage, Blocks.entries_of_onlyEntry h]
  simp [pinLines, keyValue_keyLine, keyValue_newTag_digest]

theorem readImage_of_noEntry {repository text : String}
    (h : Blocks.NoEntry (opensEntryOf repository) (Text.lines text)) :
    readImage repository text = none := by
  rw [readImage, Blocks.entries_of_noEntry h]

/-! ## Several pins in one file -/

/-- A repository and the digest its entry is given, for each pin of a file, one after the other. -/
def repinAll (version : String) (text : String) (pins : List (String × String)) :
    Except PlatformGitError String :=
  pins.foldlM (fun text pin => repin text pin.1 version pin.2) text

theorem repinAll_append {version text : String} {pins : List (String × String)}
    {pin : String × String} {final : String}
    (h : repinAll version text (pins ++ [pin]) = .ok final) :
    ∃ before, repinAll version text pins = .ok before ∧
      repin before pin.1 version pin.2 = .ok final := by
  rw [repinAll, List.foldlM_append] at h
  obtain ⟨before, hbefore, hlast⟩ := bind_eq_ok.mp h
  rw [List.foldlM_cons] at hlast
  obtain ⟨last, hrepin, hnil⟩ := bind_eq_ok.mp hlast
  cases hnil
  exact ⟨before, hbefore, hrepin⟩

/-- No pin's entry stands among the lines that a pin written after it replaces, in the file as
the pins before that one leave it. -/
def Clear (version text : String) (pins : List (String × String)) : Prop :=
  ∀ front pin back before, pins = front ++ pin :: back →
    repinAll version text front = .ok before → ∀ earlier ∈ front, earlier.1 ≠ pin.1 →
      Blocks.NoEntry (opensEntryOf earlier.1)
        (Blocks.replaced (opensEntryOf pin.1) continues (Text.lines before))

/-- Pins of one repository give it one digest. -/
def OneDigest (pins : List (String × String)) : Prop :=
  ∀ first ∈ pins, ∀ second ∈ pins, first.1 = second.1 → first.2 = second.2

theorem clear_append {version text before : String} {pins : List (String × String)}
    {pin : String × String} (hbefore : repinAll version text pins = .ok before) :
    Clear version text (pins ++ [pin]) ↔ Clear version text pins ∧
      ∀ earlier ∈ pins, earlier.1 ≠ pin.1 → Blocks.NoEntry (opensEntryOf earlier.1)
        (Blocks.replaced (opensEntryOf pin.1) continues (Text.lines before)) := by
  constructor
  · intro h
    refine ⟨?_, h pins pin [] before rfl hbefore⟩
    intro front other back text' hpins
    exact h front other (back ++ [pin]) text' (by rw [hpins]; simp)
  · rintro ⟨hclear, hlast⟩ front other back text' hpins hfront
    rcases List.eq_nil_or_concat back with rfl | ⟨back, final, rfl⟩
    · obtain ⟨hsame, hpin⟩ := List.append_inj' hpins rfl
      cases hpin
      subst hsame
      rw [hbefore] at hfront
      cases hfront
      exact hlast
    · have hpins' : pins = front ++ other :: back := by
        rw [List.concat_eq_append, ← List.cons_append, ← List.append_assoc] at hpins
        exact (List.append_inj' hpins rfl).1
      exact hclear front other back text' hpins' hfront

/-- A repository's entry says what some pin of it wrote. -/
def Says (version text : String) (pins : List (String × String)) (repository : String) : Prop :=
  ∃ pin ∈ pins, pin.1 = repository ∧ ∃ line, Blocks.OnlyEntry (opensEntryOf repository) continues
    (Text.lines text) line (pinLines version pin.2 line)

/-- A repository's entry is gone. -/
def Gone (text repository : String) : Prop :=
  Blocks.NoEntry (opensEntryOf repository) (Text.lines text)

theorem Says.not_gone {version text repository : String} {pins : List (String × String)}
    (h : Says version text pins repository) : ¬ Gone text repository := by
  obtain ⟨pin, -, -, line, before, after, hlines, hopens, -⟩ := h
  intro hgone
  have hnot := hgone line (by rw [hlines]; simp)
  rw [hnot] at hopens
  cases hopens

section Run

variable {version text : String}

/-- One more pin: its own entry says what it wrote, and another's is kept or gone as it stood. -/
theorem says_or_gone_step {before after : String} {pins : List (String × String)}
    {pin : String × String} (hfed : LineFed before) (hversion : FitsLine version.toList)
    (hdigest : FitsLine pin.2.toList) (hrepin : repin before pin.1 version pin.2 = .ok after) :
    Says version after (pins ++ [pin]) pin.1 ∧ ¬ Gone before pin.1 ∧
      ∀ repository, repository ≠ pin.1 →
        (Gone before repository → Gone after repository) ∧
          (Says version before pins repository →
            Blocks.NoEntry (opensEntryOf repository)
                (Blocks.replaced (opensEntryOf pin.1) continues (Text.lines before)) ∧
                Says version after (pins ++ [pin]) repository ∨
              ¬ Blocks.NoEntry (opensEntryOf repository)
                (Blocks.replaced (opensEntryOf pin.1) continues (Text.lines before)) ∧
                Gone after repository) := by
  have hrewrite := (repin_lines hfed hversion hdigest hrepin).2
  have hown : ∀ repository line,
      Blocks.NoEntry (opensEntryOf repository) (pinLines version pin.2 line) :=
    fun repository line => pinLines_noEntry version pin.2 repository line
  refine ⟨?_, ?_, fun repository hne => ⟨?_, ?_⟩⟩
  · refine ⟨pin, by simp, rfl, Blocks.onlyEntry_of_rewrite ?_ hrewrite⟩
    exact fun line _ other hother =>
      ⟨pinLines_continue version pin.2 line other hother, hown pin.1 line other hother⟩
  · obtain ⟨front, line, body, back, hlines, hopens, -⟩ := Blocks.rewrite_one hrewrite
    intro hgone
    have hnot := hgone line (by rw [hlines]; simp)
    rw [hnot] at hopens
    cases hopens
  · exact Blocks.noEntry_of_rewrite (hown repository) hrewrite
  · rintro ⟨other, hother, hrepository, line, hentry⟩
    have hdisjoint : ∀ line, opensEntryOf repository line = true →
        opensEntryOf pin.1 line = false := by
      intro line hopens
      cases hpin : opensEntryOf pin.1 line with
      | false => rfl
      | true => exact absurd (repository_of_opensEntryOf hopens hpin) hne
    rcases Blocks.onlyEntry_of_rewrite_other (hown repository) hdisjoint hrewrite hentry
      (pinLines_noEntry version other.2 pin.1 line) with ⟨hfree, hkept⟩ | ⟨hunder, hgone⟩
    · exact Or.inl ⟨hfree, other, by simp [hother], hrepository, line, hkept⟩
    · exact Or.inr ⟨hunder, hgone⟩

/-- After all pins of a file: it still is whole lines, every repository's entry says what some pin
of it wrote or is gone, and none is gone exactly where none stood in another's way. -/
theorem repinAll_tells {pins : List (String × String)} {final : String} (hfed : LineFed text)
    (hversion : FitsLine version.toList) (hdigests : ∀ pin ∈ pins, FitsLine pin.2.toList)
    (h : repinAll version text pins = .ok final) :
    LineFed final ∧
      (∀ pin ∈ pins, Says version final pins pin.1 ∨ Gone final pin.1) ∧
        (Clear version text pins ↔ ∀ pin ∈ pins, ¬ Gone final pin.1) := by
  induction pins using List.reverseRecOn generalizing final with
  | nil =>
      cases h
      refine ⟨hfed, by simp, by simp, ?_⟩
      intro _ front pin back before hpins
      simp at hpins
  | append_singleton pins pin ih =>
      obtain ⟨before, hbefore, hrepin⟩ := repinAll_append h
      obtain ⟨hfed', hstatus, hclear⟩ :=
        ih (fun other hother => hdigests other (by simp [hother])) hbefore
      have hdigest := hdigests pin (by simp)
      obtain ⟨hown, hpresent, hothers⟩ :=
        @says_or_gone_step _ _ _ pins _ hfed' hversion hdigest hrepin
      refine ⟨(repin_lines hfed' hversion hdigest hrepin).1, ?_, ?_⟩
      · intro other hother
        -- Its own entry says the last pin; another's stays as it is, or is gone with the lines
        -- replaced.
        by_cases hsame : other.1 = pin.1
        · rw [hsame]
          exact Or.inl hown
        · have hother : other ∈ pins := by
            rcases List.mem_append.mp hother with hmem | hmem
            · exact hmem
            · exact absurd (congrArg Prod.fst (List.mem_singleton.mp hmem)) hsame
          rcases hstatus other hother with hsays | hgone
          · rcases (hothers other.1 hsame).2 hsays with ⟨-, hkept⟩ | ⟨-, hgone⟩
            · exact Or.inl hkept
            · exact Or.inr hgone
          · exact Or.inr ((hothers other.1 hsame).1 hgone)
      · rw [clear_append hbefore, hclear]
        constructor
        · rintro ⟨hpresent', hfree⟩ other hother
          by_cases hsame : other.1 = pin.1
          · rw [hsame]
            exact hown.not_gone
          · have hother : other ∈ pins := by
              rcases List.mem_append.mp hother with hmem | hmem
              · exact hmem
              · exact absurd (congrArg Prod.fst (List.mem_singleton.mp hmem)) hsame
            have hsays := (hstatus other hother).resolve_right (hpresent' other hother)
            rcases (hothers other.1 hsame).2 hsays with ⟨-, hkept⟩ | ⟨hunder, -⟩
            · exact hkept.not_gone
            · exact absurd (hfree other hother hsame) hunder
        · intro hall
          have hkept : ∀ other ∈ pins, ¬ Gone before other.1 := by
            intro other hother hgone
            by_cases hsame : other.1 = pin.1
            · rw [hsame] at hgone
              exact hpresent hgone
            · exact hall other (by simp [hother]) ((hothers other.1 hsame).1 hgone)
          refine ⟨hkept, fun other hother hsame => ?_⟩
          have hsays := (hstatus other hother).resolve_right (hkept other hother)
          rcases (hothers other.1 hsame).2 hsays with ⟨hfree, -⟩ | ⟨-, hgone⟩
          · exact hfree
          · exact absurd hgone (hall other (by simp [hother]))

/-- All pins of a file read back as they were written exactly where pins of one repository agree
and no entry stands in the way of another. -/
theorem repinAll_reads {pins : List (String × String)} {final : String} (hfed : LineFed text)
    (hversion : FitsLine version.toList) (hdigests : ∀ pin ∈ pins, FitsLine pin.2.toList)
    (h : repinAll version text pins = .ok final) :
    (∀ pin ∈ pins, readImage pin.1 final = some (version.toList, pin.2.toList)) ↔
      OneDigest pins ∧ Clear version text pins := by
  obtain ⟨-, hstatus, hclear⟩ := repinAll_tells hfed hversion hdigests h
  have hread : ∀ repository, Says version final pins repository →
      ∃ pin ∈ pins, pin.1 = repository ∧
        readImage repository final = some (version.toList, pin.2.toList) := by
    rintro repository ⟨pin, hpin, hrepository, line, hentry⟩
    exact ⟨pin, hpin, hrepository, readImage_of_onlyEntry hentry⟩
  rw [hclear]
  constructor
  · intro hreads
    have hpresent : ∀ pin ∈ pins, ¬ Gone final pin.1 := by
      intro pin hpin hgone
      have hnone := readImage_of_noEntry hgone
      rw [hreads pin hpin] at hnone
      cases hnone
    refine ⟨fun first hfirst second hsecond hsame => ?_, hpresent⟩
    have hfirst' := hreads first hfirst
    have hsecond' := hreads second hsecond
    rw [hsame, hsecond'] at hfirst'
    have hpair := Prod.mk.inj (Option.some.inj hfirst')
    exact (String.toList_inj.mp hpair.2).symm
  · rintro ⟨hone, hpresent⟩ pin hpin
    have hsays := (hstatus pin hpin).resolve_right (hpresent pin hpin)
    obtain ⟨other, hother, hsame, hreads⟩ := hread pin.1 hsays
    rw [hreads, hone other hother pin hpin hsame]

end Run

/-! ## What is outside the entries -/

/-- Of a text of whole lines, what is outside is outside its lines. -/
theorem linesOutside_of_lineFed {text : String} (hfed : LineFed text)
    (repositories : List String) :
    linesOutside repositories text =
      (Blocks.outside
        (fun line => repositories.any fun repository => opensEntryOf repository line) continues
        none (Text.lines text)).map (· ++ ['\n']) := by
  have hmap : ∀ (lines : List TextLine) (opened : Option TextLine),
      (∀ line ∈ lines, FitsLine line) → (∀ line, opened = some line → FitsLine line) →
      Blocks.outside
        (fun raw => repositories.any fun repository =>
          opensEntryOf repository (Text.unterminate raw).1)
        (fun raw next => continues (Text.unterminate raw).1 (Text.unterminate next).1)
        (opened.map (· ++ ['\n'])) (lines.map (· ++ ['\n'])) =
      (Blocks.outside
        (fun line => repositories.any fun repository => opensEntryOf repository line) continues
        opened lines).map (· ++ ['\n']) := by
    intro lines
    induction lines with
    | nil => exact fun _ _ _ => rfl
    | cons line lines ih =>
        intro opened hfits hopened
        have hline := hfits line List.mem_cons_self
        have hrest := fun other hother => hfits other (List.mem_cons_of_mem line hother)
        have hunder : ((opened.map (· ++ ['\n'])).any fun raw =>
            continues (Text.unterminate raw).1 (Text.unterminate (line ++ ['\n'])).1) =
              opened.any fun opening => continues opening line := by
          cases opened with
          | none => rfl
          | some opening =>
              simp [unterminate_lineFeed hline.2, unterminate_lineFeed (hopened opening rfl).2]
        rw [List.map_cons, Blocks.outside, Blocks.outside, hunder]
        split
        · exact ih opened hrest hopened
        · simp only [unterminate_lineFeed hline.2, List.map_cons]
          split
          · rw [← ih (some line) hrest fun other hother => by cases hother; exact hline]
            rfl
          · rw [← ih none hrest fun other hother => by cases hother]
            rfl
  have htext := hfed.lines
  rw [linesOutside]
  conv => lhs; rw [htext.2]
  rw [String.toList_ofList, splitInclusive_unlines fun line hline => (htext.1 line hline).1]
  exact hmap _ none htext.1 fun other hother => by cases hother

/-- Rewriting an entry leaves every line outside the pinned entries as it was. -/
theorem linesOutside_repinAll {version text final : String} {pins : List (String × String)}
    {repositories : List String} (hpins : ∀ pin ∈ pins, pin.1 ∈ repositories)
    (hfed : LineFed text) (hversion : FitsLine version.toList)
    (hdigests : ∀ pin ∈ pins, FitsLine pin.2.toList)
    (h : repinAll version text pins = .ok final) :
    linesOutside repositories final = linesOutside repositories text := by
  induction pins using List.reverseRecOn generalizing final with
  | nil =>
      cases h
      rfl
  | append_singleton pins pin ih =>
      obtain ⟨before, hbefore, hrepin⟩ := repinAll_append h
      have hdigests' : ∀ other ∈ pins, FitsLine other.2.toList :=
        fun other hother => hdigests other (by simp [hother])
      have hkept := ih (fun other hother => hpins other (by simp [hother])) hdigests' hbefore
      have hfed' := (repinAll_tells hfed hversion hdigests' hbefore).1
      obtain ⟨hfinal, hrewrite⟩ := repin_lines hfed' hversion (hdigests pin (by simp)) hrepin
      rw [← hkept, linesOutside_of_lineFed hfinal, linesOutside_of_lineFed hfed']
      have hout := congrArg Prod.fst hrewrite
      dsimp only at hout
      rw [← hout, Blocks.outside_rewrite continues_trans _ _ none none _ nofun]
      · intro line hopens
        exact List.any_eq_true.mpr ⟨pin.1, hpins pin (by simp), hopens⟩
      · exact fun line _ => pinLines_continue version pin.2 line

end PlatformGit
end SaasFabric
