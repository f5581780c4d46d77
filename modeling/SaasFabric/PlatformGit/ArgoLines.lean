import SaasFabric.PlatformGit.ImagePinned

/-!
# The lines of an Application, one of them replaced

A text is its lines with what ended each of them.  Where one line's content is replaced by
another the text that is written back splits into the same lines again, and a revision's line
with another version in place of its value is read as it was, but for that value.
-/

namespace SaasFabric
namespace PlatformGit
namespace Argo

/-! ## Lines, joined and split again -/

/-- What can end a line of some content. -/
def EndsIn (content terminator : TextLine) : Prop :=
  terminator = [] ∨ (terminator = ['\n'] ∧ content.getLast? ≠ some '\r') ∨
    terminator = ['\r', '\n']

theorem EndsIn.unterminate {content terminator : TextLine} (h : EndsIn content terminator)
    (hcontent : '\n' ∉ content) :
    Text.unterminate (content ++ terminator) = (content, terminator) := by
  rcases h with rfl | ⟨rfl, hlast⟩ | rfl
  · have hback : ∀ {c : Char} {rest : TextLine}, content.reverse = c :: rest → c ≠ '\n' := by
      rintro c rest hrest rfl
      exact hcontent (List.mem_reverse.mp (by rw [hrest]; simp))
    unfold Text.unterminate
    rw [List.append_nil]
    split
    · next hrest => exact absurd rfl (hback hrest)
    · next hrest => exact absurd rfl (hback hrest)
    · rfl
  · exact unterminate_lineFeed hlast
  · simp [Text.unterminate]

/-- A line as it is read off a text: its content, however that is indented, and what ended it. -/
structure IsWhole (line : Line) : Prop where
  unbroken : '\n' ∉ line.content
  ends : EndsIn line.content line.terminator
  spaces : line.spaces = line.content.takeWhile (· = ' ')
  rest : line.rest = line.content.dropWhile (· = ' ')

theorem IsWhole.content {line : Line} (h : IsWhole line) :
    line.content = line.spaces ++ line.rest := by
  rw [h.spaces, h.rest]
  exact List.takeWhile_append_dropWhile.symm

theorem IsWhole.read {line : Line} (h : IsWhole line) :
    Line.read (line.content ++ line.terminator) = line := by
  unfold Line.read
  rw [h.ends.unterminate h.unbroken]
  dsimp only
  rw [← h.spaces, ← h.rest]

theorem isWhole_read {content terminator : TextLine} (hcontent : '\n' ∉ content)
    (hends : EndsIn content terminator) :
    IsWhole (Line.read (content ++ terminator)) ∧
      (Line.read (content ++ terminator)).content = content ∧
        (Line.read (content ++ terminator)).terminator = terminator := by
  unfold Line.read
  rw [hends.unterminate hcontent]
  exact ⟨⟨hcontent, hends, rfl, rfl⟩, rfl, rfl⟩

/-- The lines of a text: only the last one can have nothing that ended it. -/
def Whole : List Line → Prop
  | [] => True
  | line :: rest =>
      IsWhole line ∧ (line.terminator = [] → line.content ≠ [] ∧ rest = []) ∧ Whole rest

theorem Whole.isWhole {lines : List Line} (h : Whole lines) : ∀ line ∈ lines, IsWhole line := by
  induction lines with
  | nil => exact fun _ hline => nomatch hline
  | cons first lines ih =>
      intro line hline
      rcases List.mem_cons.mp hline with rfl | hline
      · exact h.1
      · exact ih h.2.2 line hline

theorem isWhole_of_lineFeed {body : TextLine} (hbody : '\n' ∉ body) :
    IsWhole (Line.read (body ++ ['\n'])) ∧ (Line.read (body ++ ['\n'])).terminator ≠ [] := by
  rcases Images.getLast?_cases body with hlast | ⟨first, rfl⟩
  · obtain ⟨hwhole, -, hterminator⟩ := isWhole_read hbody (.inr (.inl ⟨rfl, hlast⟩))
    exact ⟨hwhole, by rw [hterminator]; simp⟩
  · have hfirst : '\n' ∉ first := fun hmem => hbody (by simp [hmem])
    obtain ⟨hwhole, -, hterminator⟩ := isWhole_read hfirst (.inr (.inr rfl))
    rw [List.append_assoc, List.singleton_append]
    exact ⟨hwhole, by rw [hterminator]; simp⟩

/-- Pieces of a text: each ends in its only line feed, or is the last and has none. -/
def Pieces : List TextLine → Prop
  | [] => True
  | raw :: rest =>
      (∃ body, '\n' ∉ body ∧ (raw = body ++ ['\n'] ∨ (raw = body ∧ body ≠ [] ∧ rest = []))) ∧
        Pieces rest

theorem pieces_splitInclusive (text : List Char) : Pieces (Text.splitInclusive text) := by
  induction text with
  | nil => trivial
  | cons c text ih =>
      unfold Text.splitInclusive
      split
      · next hc => exact ⟨⟨[], by simp, .inl (by simp [hc])⟩, ih⟩
      · next hc =>
          cases hrest : Text.splitInclusive text with
          | nil => exact ⟨⟨[c], by simp [Ne.symm hc], .inr ⟨rfl, by simp, rfl⟩⟩, trivial⟩
          | cons line lines =>
              rw [hrest] at ih
              obtain ⟨⟨body, hbody, hshape⟩, hlines⟩ := ih
              refine ⟨⟨c :: body, by simp [Ne.symm hc, hbody], ?_⟩, hlines⟩
              rcases hshape with rfl | ⟨rfl, -, hlast⟩
              · exact .inl rfl
              · exact .inr ⟨rfl, by simp, hlast⟩

theorem Pieces.whole {raws : List TextLine} (h : Pieces raws) : Whole (raws.map Line.read) := by
  induction raws with
  | nil => trivial
  | cons raw rest ih =>
      obtain ⟨⟨body, hbody, hshape⟩, hrest⟩ := h
      rcases hshape with rfl | ⟨rfl, hne, rfl⟩
      · obtain ⟨hwhole, hterminator⟩ := isWhole_of_lineFeed hbody
        exact ⟨hwhole, fun hnone => absurd hnone hterminator, ih hrest⟩
      · obtain ⟨hwhole, hcontent, -⟩ := isWhole_read hbody (.inl rfl)
        rw [List.append_nil] at hwhole hcontent
        exact ⟨hwhole, fun _ => ⟨by rw [hcontent]; exact hne, rfl⟩, trivial⟩

theorem whole_split (text : String) : Whole (Line.split text) :=
  (pieces_splitInclusive text.toList).whole

theorem splitInclusive_of_not_mem {body : TextLine} (hbody : '\n' ∉ body) (hne : body ≠ []) :
    Text.splitInclusive body = [body] := by
  induction body with
  | nil => exact absurd rfl hne
  | cons c body ih =>
      rw [List.mem_cons, not_or] at hbody
      unfold Text.splitInclusive
      rw [if_neg (Ne.symm hbody.1)]
      by_cases hnil : body = []
      · rw [hnil]
        rfl
      · rw [ih hbody.2 hnil]

/-- The text that lines are written back as. -/
def joined (lines : List Line) : TextLine :=
  lines.flatMap fun line => line.content ++ line.terminator

theorem Whole.split_joined {lines : List Line} (h : Whole lines) :
    Line.split (String.ofList (joined lines)) = lines := by
  unfold Line.split
  rw [String.toList_ofList]
  induction lines with
  | nil => rfl
  | cons line rest ih =>
      obtain ⟨hline, hlast, hrest⟩ := h
      have hread := hline.read
      have hjoined : joined (line :: rest) =
          line.content ++ line.terminator ++ joined rest := List.flatMap_cons
      rw [hjoined]
      rcases hline.ends with hnone | ⟨hfeed, -⟩ | hboth
      · obtain ⟨hne, rfl⟩ := hlast hnone
        rw [hnone] at hread ⊢
        rw [List.append_nil] at hread ⊢
        rw [show joined [] = [] from rfl, List.append_nil,
          splitInclusive_of_not_mem hline.unbroken hne, List.map_singleton, hread]
      · rw [hfeed] at hread ⊢
        rw [List.append_assoc, List.singleton_append, splitInclusive_append hline.unbroken,
          List.map_cons, hread, ih hrest]
      · rw [hboth] at hread ⊢
        have hunbroken : '\n' ∉ line.content ++ ['\r'] := by
          simp [hline.unbroken]
        have hsame : line.content ++ ['\r', '\n'] = line.content ++ ['\r'] ++ ['\n'] := by simp
        rw [hsame] at hread ⊢
        rw [List.append_assoc, List.singleton_append, splitInclusive_append hunbroken,
          List.map_cons, hread, ih hrest]

theorem joined_split (text : String) : joined (Line.split text) = text.toList :=
  (Images.text_eq text).symm

/-! ## One line replaced -/

/-- Lines, the one of some number with another content. -/
def replaced (pinned : Nat) (content : TextLine) (index : Nat) (lines : List Line) : List Line :=
  (numbered index lines).map fun item =>
    if item.1 = pinned then Line.read (content ++ item.2.terminator) else item.2

theorem replaced_cons (pinned : Nat) (content : TextLine) (index : Nat) (line : Line)
    (rest : List Line) :
    replaced pinned content index (line :: rest) =
      (if index = pinned then Line.read (content ++ line.terminator) else line) ::
        replaced pinned content (index + 1) rest := rfl

/-- A content that can stand where another stood: on one line, and ended as that was. -/
structure Replaces (content : TextLine) (line : Line) : Prop where
  unbroken : '\n' ∉ content
  nonempty : content ≠ []
  ends : EndsIn content line.terminator

theorem Whole.replaced {lines : List Line} (h : Whole lines) {pinned index : Nat}
    {content : TextLine}
    (hcontent : ∀ line, (pinned, line) ∈ numbered index lines → Replaces content line) :
    Whole (replaced pinned content index lines) := by
  induction lines generalizing index with
  | nil => trivial
  | cons line rest ih =>
      obtain ⟨hline, hlast, hrest⟩ := h
      have hnil : rest = [] → Argo.replaced pinned content (index + 1) rest = [] := by
        rintro rfl
        rfl
      rw [replaced_cons]
      refine ⟨?_, ?_, ih hrest fun other hother => hcontent other (List.mem_cons_of_mem _ hother)⟩
      · split
        · next hpin =>
            have hreplaces := hcontent line (by rw [← hpin]; exact List.mem_cons_self)
            exact (isWhole_read hreplaces.unbroken hreplaces.ends).1
        · exact hline
      · split
        · next hpin =>
            have hreplaces := hcontent line (by rw [← hpin]; exact List.mem_cons_self)
            obtain ⟨-, hread, hterminator⟩ := isWhole_read hreplaces.unbroken hreplaces.ends
            rw [hread, hterminator]
            exact fun hnone => ⟨hreplaces.nonempty, hnil (hlast hnone).2⟩
        · exact fun hnone => ⟨(hlast hnone).1, hnil (hlast hnone).2⟩

theorem joined_replaced {lines : List Line} {pinned index : Nat} {content : TextLine}
    (hcontent : ∀ line, (pinned, line) ∈ numbered index lines → Replaces content line) :
    joined (replaced pinned content index lines) =
      (numbered index lines).flatMap fun item =>
        (if item.1 = pinned then content else item.2.content) ++ item.2.terminator := by
  unfold joined replaced
  rw [List.flatMap_map]
  refine List.flatMap_congr fun item hitem => ?_
  split
  · next hpin =>
      have hreplaces := hcontent item.2 (by rw [← hpin]; exact hitem)
      obtain ⟨-, hread, hterminator⟩ := isWhole_read hreplaces.unbroken hreplaces.ends
      rw [hread, hterminator]
  · rfl

/-- What is written back splits into the same lines, the moved one replaced. -/
theorem split_writeBack {text : String} {pinned : Nat} {content : TextLine}
    (hcontent : ∀ line, (pinned, line) ∈ numbered 0 (Line.split text) → Replaces content line) :
    Line.split (String.ofList (writeBack (Line.split text) pinned content)) =
      replaced pinned content 0 (Line.split text) := by
  unfold writeBack
  rw [← joined_replaced hcontent]
  exact ((whole_split text).replaced hcontent).split_joined

/-! ## A value, written again -/

theorem isWritableChar_ne {c d : Char} (h : isWritableChar c = true)
    (hd : isWritableChar d = false) : c ≠ d := by
  rintro rfl
  rw [h] at hd
  cases hd

theorem isWritableChar_blank {c : Char} (h : isWritableChar c = true) :
    isWhitespace c = false := by
  have hrange : 0x2B ≤ c.toNat ∧ c.toNat ≤ 0x7A := by
    unfold isWritableChar Char.isAlphanum Char.isAlpha Char.isDigit at h
    simp only [Text.isLower_eq, Text.isUpper_eq, Bool.or_eq_true, Bool.and_eq_true,
      decide_eq_true_eq, UInt32.le_iff_toNat_le] at h
    rcases h with ((((⟨hlow, hhigh⟩ | ⟨hlow, hhigh⟩) | ⟨hlow, hhigh⟩) | rfl) | rfl) | rfl
    · exact ⟨le_trans (by decide) hlow, le_trans hhigh (by decide)⟩
    · exact ⟨le_trans (by decide) hlow, le_trans hhigh (by decide)⟩
    · exact ⟨le_trans (by decide) hlow, le_trans hhigh (by decide)⟩
    · decide
    · decide
    · decide
  unfold isWhitespace
  simp only [Bool.or_eq_false_iff, Bool.and_eq_false_iff, beq_eq_false_iff_ne,
    decide_eq_false_iff_not]
  omega

theorem isSeparation_of_blank {c : Char} (h : isWhitespace c = false) : isSeparation c = false := by
  rw [Bool.eq_false_iff]
  intro hsep
  unfold isSeparation at hsep
  rw [Bool.or_eq_true, decide_eq_true_eq, decide_eq_true_eq] at hsep
  rcases hsep with rfl | rfl
  · revert h
    decide
  · revert h
    decide

/-- A version that can be written: some characters, none of which means anything to a reader. -/
theorem isWritable_cases {version : String} (h : isWritable version = true) :
    version.toList ≠ [] ∧ ∀ c ∈ version.toList, isWritableChar c = true := by
  unfold isWritable at h
  rw [Bool.and_eq_true, bne_iff_ne, List.all_eq_true] at h
  refine ⟨fun hnil => h.1 ?_, h.2⟩
  rw [← String.toList_inj, hnil]
  rfl

theorem beforeComment_append {before : Option Char} {value suffix : TextLine}
    (h : value <+: beforeComment before (value ++ suffix)) :
    beforeComment before (value ++ suffix) =
      value ++ beforeComment (value.getLast?.or before) suffix := by
  induction value generalizing before with
  | nil => rfl
  | cons c value ih =>
      have hstep : beforeComment before (c :: (value ++ suffix)) =
          if c = '#' && before.any isSeparation then []
          else c :: beforeComment (some c) (value ++ suffix) := rfl
      have hlast : (c :: value).getLast?.or before = value.getLast?.or (some c) := by
        cases value with
        | nil => rfl
        | cons d value => simp [List.getLast?_cons]
      rw [List.cons_append, hstep] at h ⊢
      split
      · next hcomment =>
          rw [if_pos hcomment] at h
          exact absurd h (by simp)
      · next hcomment =>
          rw [if_neg hcomment] at h
          rw [ih (List.cons_prefix_cons.mp h).2, List.cons_append, hlast]

theorem prefix_beforeComment_of_not_mem {before : Option Char} {value suffix : TextLine}
    (h : '#' ∉ value) : value <+: beforeComment before (value ++ suffix) := by
  induction value generalizing before with
  | nil => exact List.nil_prefix
  | cons c value ih =>
      rw [List.mem_cons, not_or] at h
      rw [List.cons_append]
      unfold beforeComment
      rw [if_neg (by simp [Ne.symm h.1])]
      exact List.cons_prefix_cons.mpr ⟨rfl, ih h.2⟩

/-- What stands before a text matters to it only where it starts with a sharp. -/
theorem beforeComment_congr {first second : Option Char} {text : TextLine}
    (h : text.head? ≠ some '#') : beforeComment first text = beforeComment second text := by
  cases text with
  | nil => rfl
  | cons c text =>
      have hc : c ≠ '#' := fun hc => h (by rw [hc]; rfl)
      unfold beforeComment
      rw [if_neg (by simp [hc]), if_neg (by simp [hc])]

theorem trimEnd_append {value blank : TextLine} (hblank : ∀ c ∈ blank, isWhitespace c = true)
    (hvalue : ∀ c, value.getLast? = some c → isWhitespace c = false) :
    trimEnd (value ++ blank) = value := by
  show (value ++ blank).rdropWhile isWhitespace = value
  rw [List.rdropWhile, List.reverse_append,
    List.dropWhile_append_of_pos fun c hc => hblank c (List.mem_reverse.mp hc)]
  rcases List.eq_nil_or_concat value with rfl | ⟨front, c, rfl⟩
  · rfl
  · have hc := hvalue c (by simp)
    rw [List.concat_eq_append, List.reverse_append, List.reverse_singleton,
      List.singleton_append, List.dropWhile_cons_of_neg (by simp [hc]), List.reverse_cons,
      List.reverse_reverse]

/-- A text is what is left of it at the end and the blanks that are taken off. -/
theorem trimEnd_cases (text : TextLine) :
    ∃ blank, text = trimEnd text ++ blank ∧ (∀ c ∈ blank, isWhitespace c = true) ∧
      ∀ c, (trimEnd text).getLast? = some c → isWhitespace c = false := by
  refine ⟨text.rtakeWhile isWhitespace, (List.rdropWhile_append_rtakeWhile).symm,
    fun c hc => List.mem_rtakeWhile_imp hc, ?_⟩
  intro c hc
  have hne : text.rdropWhile isWhitespace ≠ [] := by
    intro hnil
    rw [show trimEnd text = [] from hnil] at hc
    cases hc
  have hnot := List.rdropWhile_last_not isWhitespace text hne
  have hlast : List.getLast _ hne = c := by
    have hsome := List.getLast?_eq_some_getLast hne
    rw [show (text.rdropWhile isWhitespace).getLast? = some c from hc] at hsome
    exact (Option.some.inj hsome).symm
  rw [hlast] at hnot
  exact Bool.eq_false_iff.mpr hnot

/-- A value without quotes is what is left of what stands before the comment. -/
theorem trimEnd_of_splitValue {value suffix : TextLine}
    (hsplit : splitValue (value ++ suffix) = some (value, suffix)) {c : Char} {rest : TextLine}
    (hvalue : value = c :: rest) (hquote : c ≠ '"' ∧ c ≠ '\'') :
    trimEnd (beforeComment none (value ++ suffix)) = value := by
  subst hvalue
  unfold splitValue at hsplit
  rw [List.cons_append] at hsplit
  dsimp only at hsplit
  split at hsplit
  · cases hsplit
  · rw [if_neg (by simp [hquote])] at hsplit
    exact (Prod.mk.inj (Option.some.inj hsplit)).1

/-- What follows a value without quotes: blanks, up to what is a comment there. -/
theorem blank_after_value {value suffix : TextLine}
    (hsplit : splitValue (value ++ suffix) = some (value, suffix)) {c : Char} {rest : TextLine}
    (hvalue : value = c :: rest) (hquote : c ≠ '"' ∧ c ≠ '\'') :
    suffix.head? ≠ some '#' ∧
      ∀ before, ∀ c ∈ beforeComment before suffix, isWhitespace c = true := by
  have htrim := trimEnd_of_splitValue hsplit hvalue hquote
  obtain ⟨blank, htext, hblank, hlast⟩ := trimEnd_cases (beforeComment none (value ++ suffix))
  rw [htrim] at htext hlast
  have hwhole := beforeComment_append ⟨blank, htext.symm⟩
  rw [htext] at hwhole
  have hsame : blank = beforeComment (value.getLast?.or none) suffix :=
    List.append_cancel_left hwhole
  have hwhite : ∀ d ∈ beforeComment (value.getLast?.or none) suffix, isWhitespace d = true := by
    rw [← hsame]
    exact hblank
  have hsharp : suffix.head? ≠ some '#' := by
    intro hhead
    obtain ⟨more, rfl⟩ : ∃ more, suffix = '#' :: more := by
      cases suffix with
      | nil => cases hhead
      | cons d more => exact ⟨more, by rw [Option.some.inj hhead]⟩
    obtain ⟨d, hd⟩ : ∃ d, value.getLast? = some d := by
      rw [hvalue]
      exact ⟨_, List.getLast?_cons⟩
    have hnosep := isSeparation_of_blank (hlast d hd)
    have hmem : '#' ∈ beforeComment (value.getLast?.or none) ('#' :: more) := by
      rw [hd]
      unfold beforeComment
      simp [hnosep]
    have hsharp := hwhite '#' hmem
    revert hsharp
    decide
  refine ⟨hsharp, fun before d hd => hwhite d ?_⟩
  rw [beforeComment_congr hsharp]
  exact hd

/-- The quotes of a value that a version can be written in place of. -/
theorem quoteOf_cases {value quote : TextLine} (h : Scalar.quoteOf value = .ok quote) :
    ∃ c rest, value = c :: rest ∧
      (((c = '"' ∨ c = '\'') ∧ quote = [c]) ∨
        ((c ≠ '"' ∧ c ≠ '\'') ∧ c ∉ ['|', '>', '{', '[', '&', '*', '!'] ∧ quote = [])) := by
  unfold Scalar.quoteOf at h
  split at h
  · cases h
  · next c rest =>
      refine ⟨c, rest, rfl, ?_⟩
      split at h
      · next hquote =>
          cases h
          rw [Bool.or_eq_true, decide_eq_true_eq, decide_eq_true_eq] at hquote
          exact .inl ⟨hquote, rfl⟩
      · next hquote =>
          split at h
          · cases h
          · next hspecial =>
              cases h
              simp only [Bool.or_eq_true, decide_eq_true_eq, not_or] at hquote
              exact .inr ⟨hquote, by simpa using hspecial, rfl⟩

/-- A version between the quotes of the value it is written in place of. -/
def quoted (quote : TextLine) (version : String) : TextLine := quote ++ version.toList ++ quote

theorem quoteOf_quoted {value quote : TextLine} {version : String}
    (hquote : Scalar.quoteOf value = .ok quote) (hversion : isWritable version = true) :
    Scalar.quoteOf (quoted quote version) = .ok quote := by
  obtain ⟨hne, hchars⟩ := isWritable_cases hversion
  obtain ⟨c, rest, -, ⟨hc, rfl⟩ | ⟨-, -, rfl⟩⟩ := quoteOf_cases hquote
  · show (if (c = '"' || c = '\'') = true then _ else _) = _
    rw [if_pos (by simpa using hc)]
  · obtain ⟨d, more, hmore⟩ := List.exists_cons_of_ne_nil hne
    have hd := hchars d (by rw [hmore]; simp)
    have hkeeps : ∀ sign : Char, isWritableChar sign = false → d ≠ sign :=
      fun sign hsign => isWritableChar_ne hd hsign
    unfold quoted
    rw [List.nil_append, List.append_nil, hmore]
    unfold Scalar.quoteOf
    dsimp only
    rw [if_neg (by simp [hkeeps '"' (by decide), hkeeps '\'' (by decide)]), if_neg (by
      simp [hkeeps '|' (by decide), hkeeps '>' (by decide), hkeeps '\x7b' (by decide),
        hkeeps '[' (by decide), hkeeps '&' (by decide), hkeeps '*' (by decide),
        hkeeps '!' (by decide)])]

/-- A value in its quotes is split off again, whatever version is written in place of it. -/
theorem splitValue_quoted {value suffix quote : TextLine} {version : String}
    (hsplit : splitValue (value ++ suffix) = some (value, suffix))
    (hquote : Scalar.quoteOf value = .ok quote) (hversion : isWritable version = true) :
    splitValue (quoted quote version ++ suffix) = some (quoted quote version, suffix) := by
  obtain ⟨hne, hchars⟩ := isWritable_cases hversion
  have hkeeps : ∀ d ∈ version.toList, ∀ sign : Char, isWritableChar sign = false → d ≠ sign :=
    fun d hd sign hsign => isWritableChar_ne (hchars d hd) hsign
  -- In its quotes a value ends at the next one; without, at a comment or at blanks.
  obtain ⟨c, rest, hvalue, ⟨hc, rfl⟩ | ⟨hc, -, rfl⟩⟩ := quoteOf_cases hquote
  · have hsigns : isWritableChar c = false ∧ c ≠ '#' := by
      rcases hc with rfl | rfl
      · decide
      · decide
    have hquoted : ((c = '"' || c = '\'') : Bool) = true := by simpa using hc
    have hseparated : separated suffix = true := by
      subst hvalue
      unfold splitValue at hsplit
      rw [List.cons_append] at hsplit
      dsimp only at hsplit
      rw [if_neg hsigns.2, if_pos hquoted] at hsplit
      unfold splitQuoted at hsplit
      split at hsplit
      · cases hsplit
      · split at hsplit
        · cases hsplit
        · split at hsplit
          · next hsep =>
              rw [(Prod.mk.inj (Option.some.inj hsplit)).2] at hsep
              exact hsep
          · cases hsplit
    have hspan : (version.toList ++ c :: suffix).span (· != c) = (version.toList, c :: suffix) := by
      have hall : ∀ d ∈ version.toList, (d != c) = true := by
        intro d hd
        simpa using hkeeps d hd c hsigns.1
      rw [List.span_eq_takeWhile_dropWhile, List.takeWhile_append_of_pos hall,
        List.dropWhile_append_of_pos hall, List.takeWhile_cons_of_neg (by simp),
        List.dropWhile_cons_of_neg (by simp), List.append_nil]
    -- No backslash stands in what is written, so the closing quote is not escaped.
    have hslash : version.toList.contains '\\' = false := by
      rw [Bool.eq_false_iff]
      intro hmem
      rw [List.contains_iff_mem] at hmem
      exact hkeeps _ hmem '\\' (by decide) rfl
    have htext : quoted [c] version ++ suffix = c :: (version.toList ++ c :: suffix) := by
      simp [quoted]
    rw [htext]
    unfold splitValue
    dsimp only
    rw [if_neg hsigns.2, if_pos hquoted]
    unfold splitQuoted
    rw [hspan]
    dsimp only
    rw [hslash, Bool.and_false, if_neg Bool.false_ne_true, if_pos hseparated]
    rfl
  · obtain ⟨hsharp, hblank⟩ := blank_after_value hsplit hvalue hc
    have hfree : '#' ∉ version.toList := fun hmem => hkeeps _ hmem '#' (by decide) rfl
    have htrim : trimEnd (beforeComment none (version.toList ++ suffix)) = version.toList := by
      rw [beforeComment_append (prefix_beforeComment_of_not_mem hfree)]
      refine trimEnd_append (hblank _) fun d hd => ?_
      exact isWritableChar_blank (hchars d (List.mem_of_getLast? hd))
    obtain ⟨d, more, hmore⟩ := List.exists_cons_of_ne_nil hne
    have hd : ∀ sign : Char, isWritableChar sign = false → d ≠ sign :=
      hkeeps d (by rw [hmore]; simp)
    have hdrop : (version.toList ++ suffix).drop version.toList.length = suffix :=
      List.drop_left
    unfold quoted
    rw [List.nil_append, List.append_nil]
    rw [hmore, List.cons_append] at htrim hdrop ⊢
    unfold splitValue
    dsimp only
    rw [if_neg (hd '#' (by decide)), if_neg (by simp [hd '"' (by decide), hd '\'' (by decide)]),
      htrim, hdrop]

end Argo
end PlatformGit
end SaasFabric
