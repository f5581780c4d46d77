import SaasFabric.PlatformGit.Images

/-!
# One image of an overlay is moved

Where an overlay's image is pinned the way it is written back, moving it moves its tag and its
digest and nothing else; and where every move does so, it is pinned that way.
-/

namespace SaasFabric
namespace PlatformGit
namespace Images

open Argo (Line Scalar)
open Library

/-! ## Lines, as they are written back -/

theorem lines_eq_map (text : String) : Text.lines text = (Line.split text).map Line.content := by
  simp [Text.lines, Line.split, Line.read]

theorem split_unlines {contents : List TextLine} (h : ∀ content ∈ contents, '\n' ∉ content) :
    Line.split (String.ofList (unlines contents)) = contents.map fedLine := by
  rw [Line.split, String.toList_ofList, splitInclusive_unlines h, List.map_map]
  rfl

theorem unterminate_append (raw : List Char) :
    (Text.unterminate raw).1 ++ (Text.unterminate raw).2 = raw := by
  unfold Text.unterminate
  have hback := List.reverse_reverse raw
  split
  · next body heq =>
      rw [heq] at hback
      rw [← hback]
      simp
  · next body _ heq =>
      rw [heq] at hback
      rw [← hback]
      simp
  · simp

theorem flatten_splitInclusive (text : List Char) : (Text.splitInclusive text).flatten = text := by
  induction text with
  | nil => rfl
  | cons c text ih =>
      unfold Text.splitInclusive
      split
      · rw [List.flatten_cons, ih]
        rfl
      · split
        · next hnone =>
            rw [hnone] at ih
            rw [← ih]
            rfl
        · next line lines hlines =>
            rw [hlines, List.flatten_cons] at ih
            rw [List.flatten_cons, List.cons_append, ih]

/-- A text is its lines with what ended them. -/
theorem text_eq (text : String) :
    text.toList = (Line.split text).flatMap fun line => line.content ++ line.terminator := by
  conv => lhs; rw [← flatten_splitInclusive text.toList]
  rw [Line.split, List.flatMap_map, List.flatten_eq_flatMap]
  refine List.flatMap_congr fun raw _ => ?_
  exact (unterminate_append raw).symm

theorem fedLine_content (content : TextLine) :
    (fedLine content).content ++ (fedLine content).terminator = content ++ ['\n'] :=
  unterminate_append _

theorem IsFed.text {line : Line} (h : IsFed line) :
    line.content ++ line.terminator = line.content ++ ['\n'] := by
  conv => lhs; rw [← h]
  exact fedLine_content line.content

theorem flatMap_fed {lines : List Line} (h : ∀ line ∈ lines, IsFed line) :
    lines.flatMap (fun line => line.content ++ line.terminator) =
      unlines (lines.map Line.content) := by
  unfold unlines
  rw [List.flatMap_map]
  exact List.flatMap_congr fun line hline => (h line hline).text

theorem flatMap_fedLine (contents : List TextLine) :
    (contents.map fedLine).flatMap (fun line => line.content ++ line.terminator) =
      unlines contents := by
  unfold unlines
  rw [List.flatMap_map]
  exact List.flatMap_congr fun content _ => fedLine_content content

theorem map_fedLine {lines : List Line} (h : ∀ line ∈ lines, IsFed line) :
    (lines.map Line.content).map fedLine = lines := by
  rw [List.map_map]
  conv => rhs; rw [← List.map_id lines]
  exact List.map_congr_left h

theorem content_fedLine {content : TextLine} (h : content.getLast? ≠ some '\r') :
    (fedLine content).content = content := by
  unfold fedLine Line.read
  rw [unterminate_lineFeed h]

theorem mem_splitInclusive {text raw : List Char} (h : raw ∈ Text.splitInclusive text) :
    ∃ body, '\n' ∉ body ∧ (raw = body ++ ['\n'] ∨ raw = body) := by
  induction text generalizing raw with
  | nil => cases h
  | cons c text ih =>
      unfold Text.splitInclusive at h
      split at h
      · next hc =>
          rcases List.mem_cons.mp h with rfl | h
          · exact ⟨[], List.not_mem_nil, .inl (by rw [hc]; rfl)⟩
          · exact ih h
      · next hc =>
          split at h
          · rw [List.mem_singleton] at h
            exact ⟨[c], by simpa using Ne.symm hc, .inr h⟩
          · next line lines hlines =>
              rcases List.mem_cons.mp h with rfl | h
              · obtain ⟨body, hbody, hline⟩ := ih (hlines ▸ List.mem_cons_self)
                refine ⟨c :: body, ?_, ?_⟩
                · rw [List.mem_cons, not_or]
                  exact ⟨Ne.symm hc, hbody⟩
                · rcases hline with rfl | rfl
                  · exact .inl rfl
                  · exact .inr rfl
              · exact ih (hlines ▸ List.mem_cons_of_mem _ h)

theorem newline_not_mem {text : String} {content : TextLine} (h : content ∈ Text.lines text) :
    '\n' ∉ content := by
  obtain ⟨raw, hraw, rfl⟩ := List.mem_map.mp h
  obtain ⟨body, hbody, hshape⟩ := mem_splitInclusive hraw
  intro hmem
  have hwhole := unterminate_append raw
  rcases hshape with rfl | rfl
  · -- What is separated is a start of the body.
    have hlong : (Text.unterminate (body ++ ['\n'])).2 ≠ [] := by
      unfold Text.unterminate
      rw [List.reverse_append, List.reverse_singleton, List.singleton_append]
      split
      · exact List.cons_ne_nil _ _
      · exact List.cons_ne_nil _ _
      · next hnot => exact absurd rfl (hnot _)
    obtain ⟨rest, c, hrest⟩ := (List.eq_nil_or_concat _).resolve_left hlong
    rw [hrest, List.concat_eq_append, ← List.append_assoc] at hwhole
    obtain ⟨hstart, -⟩ := List.append_inj' hwhole rfl
    exact hbody (hstart ▸ List.mem_append_left rest hmem)
  · exact hbody (hwhole ▸ List.mem_append_left _ hmem)

/-! ## What is written back -/

/-- Rewriting an overlay with its first entry at hand. -/
theorem repin_eq_ok {text repository version digest out : String} {before body after : List TextLine}
    {line : TextLine} (hlines : Text.lines text = before ++ line :: (body ++ after))
    (hbefore : Blocks.NoEntry (opensEntryOf repository) before)
    (hline : opensEntryOf repository line = true)
    (hbody : ∀ other ∈ body, continues line other = true)
    (hstops : ∀ other, after.head? = some other → continues line other = false) :
    repin text repository version digest = .ok out ↔
      Blocks.NoEntry (opensEntryOf repository) after ∧
        out = String.ofList (unlines (before ++ line :: (pinLines version digest line ++ after))) := by
  unfold repin
  rw [repinLines_eq, hlines, Blocks.rewrite_append hbefore hline hbody]
  rcases hrest : Blocks.rewrite (opensEntryOf repository) continues (pinLines version digest)
    (some line) after with ⟨contents, count⟩
  dsimp only
  constructor
  · intro h
    split at h
    · cases h
    · next hcount =>
        have hzero : count = 0 := by omega
        subst hzero
        obtain ⟨gap, hgap, hunder, -, hnone⟩ := Blocks.rewrite_zero hrest
        have hnil : gap = [] := by
          cases gap with
          | nil => rfl
          | cons other gap =>
              obtain ⟨opening, hopening, hother⟩ := hunder other List.mem_cons_self
              cases hopening
              rw [hstops other (by rw [hgap]; rfl)] at hother
              cases hother
        rw [hnil, List.nil_append] at hgap
        rw [hgap]
        exact ⟨hnone, (Except.ok.inj h).symm⟩
  · rintro ⟨hnone, rfl⟩
    rw [Blocks.rewrite_of_noEntry hnone fun opening other hopening hother => by
      cases hopening
      exact hstops other hother] at hrest
    cases hrest
    rfl

/-- An overlay that is rewritten, at the entry that is. -/
theorem exists_of_repin {text repository version digest out : String}
    (h : repin text repository version digest = .ok out) :
    ∃ before line body after, Text.lines text = before ++ line :: (body ++ after) ∧
      opensEntryOf repository line = true ∧ Blocks.NoEntry (opensEntryOf repository) before ∧
        (∀ other ∈ body, continues line other = true) ∧
          ∀ other, after.head? = some other → continues line other = false := by
  unfold repin at h
  rw [repinLines_eq] at h
  rcases hrewrite : Blocks.rewrite (opensEntryOf repository) continues (pinLines version digest)
    none (Text.lines text) with ⟨contents, count⟩
  rw [hrewrite] at h
  dsimp only at h
  split at h
  · cases h
  · next hcount =>
      have hcount : count = 1 := not_not.mp hcount
      subst hcount
      obtain ⟨before, line, body, after, hlines, hline, hbefore, hbody, -, hstops, -⟩ :=
        Blocks.rewrite_one hrewrite
      exact ⟨before, line, body, after, hlines, hline, hbefore, hbody, hstops⟩

/-! ## The entry a marker opens -/

theorem read_content (raw : TextLine) : (Line.read raw).content =
    (Line.read raw).spaces ++ (Line.read raw).rest := by
  unfold Line.read
  exact List.takeWhile_append_dropWhile.symm

theorem IsFed.content {line : Line} (h : IsFed line) : line.content = line.spaces ++ line.rest := by
  rw [← h]
  exact read_content _

theorem read_spaces (raw : TextLine) : ∀ c ∈ (Line.read raw).spaces, c = ' ' := by
  intro c hc
  have hmem : c ∈ (Text.unterminate raw).1.takeWhile (· = ' ') := hc
  exact of_decide_eq_true (@List.mem_takeWhile_imp _ (· = ' ') _ _ hmem)

theorem IsFed.spaces {line : Line} (h : IsFed line) : ∀ c ∈ line.spaces, c = ' ' := by
  rw [← h]
  exact read_spaces _

theorem content_fedLine_return (content : TextLine) :
    (fedLine (content ++ ['\r'])).content = content := by
  simp [fedLine, Line.read, Text.unterminate]

/-- A line ends with a carriage return, or it does not. -/
theorem getLast?_cases (content : TextLine) :
    content.getLast? ≠ some '\r' ∨ ∃ first, content = first ++ ['\r'] := by
  rcases List.eq_nil_or_concat content with rfl | ⟨first, c, rfl⟩
  · exact .inl nofun
  · rw [List.concat_eq_append]
    by_cases hc : c = '\r'
    · exact .inr ⟨first, by rw [hc]⟩
    · refine .inl ?_
      rw [List.getLast?_concat]
      exact fun h => hc (Option.some.inj h)

/-- What is written back as it was does not end with a carriage return. -/
theorem IsFed.getLast?_ne {line : Line} (h : IsFed line) : line.content.getLast? ≠ some '\r' := by
  rcases getLast?_cases line.content with hnot | ⟨first, hcontent⟩
  · exact hnot
  · have hread : (fedLine line.content).content = first := by
      rw [hcontent, content_fedLine_return]
    rw [h, hcontent] at hread
    have hlength := congrArg List.length hread
    rw [List.length_append, List.length_singleton] at hlength
    omega

theorem fedLine_eq {spaces body : TextLine} (hspaces : ∀ c ∈ spaces, c = ' ')
    (hbody : body.head? ≠ some ' ') (hlast : (spaces ++ body).getLast? ≠ some '\r') :
    fedLine (spaces ++ body) = ⟨spaces ++ body, spaces, body, ['\n']⟩ := by
  have hall : ∀ c ∈ spaces, decide (c = ' ') = true := fun c hc => decide_eq_true (hspaces c hc)
  have htake : body.takeWhile (· = ' ') = [] := by
    cases body with
    | nil => rfl
    | cons c body =>
        rw [List.takeWhile_cons_of_neg]
        intro hc
        exact hbody (by rw [of_decide_eq_true hc]; rfl)
  have hdrop : body.dropWhile (· = ' ') = body := by
    cases body with
    | nil => rfl
    | cons c body =>
        rw [List.dropWhile_cons_of_neg]
        intro hc
        exact hbody (by rw [of_decide_eq_true hc]; rfl)
  unfold fedLine Line.read
  rw [unterminate_lineFeed hlast]
  dsimp only
  rw [List.takeWhile_append_of_pos hall, List.dropWhile_append_of_pos hall, htake, hdrop,
    List.append_nil]

theorem marker_eq (repository : String) :
    marker repository = '-' :: ' ' :: ("name: ".toList ++ repository.toList) := by
  unfold marker
  rfl

/-- A line that opens an entry, without its indentation. -/
theorem rest_of_opensEntryOf {repository : String} {line : Line} (hfed : IsFed line)
    (hdash : line.opensEntry = true) (h : opensEntryOf repository line.content = true) :
    line.rest = marker repository ∧ indentOf line.content = line.spaces := by
  have hspaces : ∀ c ∈ line.spaces, isWhitespace c = true := by
    intro c hc
    rw [hfed.spaces c hc]
    rfl
  obtain ⟨rest, hrest⟩ : ∃ rest, line.rest = '-' :: rest := by
    unfold Line.opensEntry at hdash
    rw [Bool.or_eq_true, beq_iff_eq, List.isPrefixOf_iff_prefix] at hdash
    rcases hdash with hone | ⟨more, hmore⟩
    · exact ⟨[], hone⟩
    · exact ⟨' ' :: more, hmore.symm⟩
  have hnot : isWhitespace '-' ≠ true := by decide
  unfold opensEntryOf at h
  unfold indentOf
  rw [beq_iff_eq, hfed.content, List.dropWhile_append_of_pos hspaces, hrest,
    List.dropWhile_cons_of_neg hnot] at h
  rw [hfed.content, List.takeWhile_append_of_pos hspaces, hrest, List.takeWhile_cons_of_neg hnot,
    List.append_nil]
  exact ⟨h, rfl⟩

theorem beside_of_marker {repository : String} {line : Line} (hfed : IsFed line)
    (h : line.rest = marker repository) :
    beside line = some (line.indent + 2, "name: ".toList ++ repository.toList) := by
  have hlength : line.content.length =
      line.indent + ("name: ".toList ++ repository.toList).length + 2 := by
    rw [hfed.content, h, marker_eq, List.length_append, List.length_cons, List.length_cons]
    unfold Line.indent
    omega
  have hafter : line.afterDash = some (line.content.length -
      ("name: ".toList ++ repository.toList).length, "name: ".toList ++ repository.toList) := by
    unfold Line.afterDash
    rw [h, marker_eq]
    rfl
  have hcolumn : line.content.length - ("name: ".toList ++ repository.toList).length =
      line.indent + 2 := by omega
  unfold beside
  rw [hafter, hcolumn]
  rfl

theorem column_of_marker {repository : String} {line : Line} (hfed : IsFed line)
    (h : line.rest = marker repository) (rest : List Line) :
    column line rest = some (line.indent + 2) := by
  unfold column
  rw [beside_of_marker hfed h]
  rfl

/-- A pinned key, on its line. -/
structure IsPinLine (dash : Line) (key value : String) (line : Line) : Prop where
  content : line.content = keyLine dash.content key value
  indent : line.indent = dash.indent + 2
  significant : line.isSignificant = true
  entry : line.opensEntry = false
  field : ownField (some (dash.indent + 2)) line = some (key.toList, value.toList)

theorem isPinLine_fedLine {key value : String} {dash : Line} (hfed : IsFed dash)
    (hfits : FitsLine dash.content) (hindent : indentOf dash.content = dash.spaces)
    (hkey : IsKey key) (hend : '\n' ∉ key.toList) (hsharp : key.toList.head? ≠ some '#')
    (hvalue : ReadsBack key value) :
    IsPinLine dash key value (fedLine (keyLine dash.content key value)) := by
  obtain ⟨c, rest, hname, hdash, hspace⟩ := hkey
  have hcontent : keyLine dash.content key value =
      (dash.spaces ++ [' ', ' ']) ++ (key.toList ++ [':', ' '] ++ value.toList) := by
    rw [keyLine_eq, continuation, hindent]
  have hlast := (fitsLine_keyLine hfits hend hvalue.1).2
  have hspaces : ∀ c ∈ dash.spaces ++ [' ', ' '], c = ' ' := by
    intro c hc
    rcases List.mem_append.mp hc with hc | hc
    · exact hfed.spaces c hc
    · simpa using hc
  have hhead : (key.toList ++ [':', ' '] ++ value.toList).head? ≠ some ' ' := by
    rw [hname]
    intro hc
    have hc : c = ' ' := Option.some.inj hc
    rw [hc] at hspace
    exact absurd hspace (by decide)
  rw [hcontent] at hlast
  have hline := fedLine_eq hspaces hhead hlast
  rw [← hcontent] at hline
  have hsignificant : (fedLine (keyLine dash.content key value)).isSignificant = true := by
    rw [hline]
    unfold Line.isSignificant
    dsimp only
    rw [hname] at hsharp ⊢
    rw [List.cons_append, List.cons_append, List.dropWhile_cons_of_neg (by simp [hspace])]
    simpa using hsharp
  have hentry : (fedLine (keyLine dash.content key value)).opensEntry = false := by
    rw [hline, Bool.eq_false_iff]
    unfold Line.opensEntry
    rw [Ne, Bool.or_eq_true, beq_iff_eq, List.isPrefixOf_iff_prefix, hname]
    rintro (hone | ⟨more, hmore⟩)
    · exact hdash (List.cons.inj hone).1
    · exact hdash (List.cons.inj hmore).1.symm
  have hcolumn : (fedLine (keyLine dash.content key value)).indent = dash.indent + 2 := by
    rw [hline]
    unfold Line.indent
    rw [List.length_append]
    rfl
  refine ⟨?_, hcolumn, hsignificant, hentry, ?_⟩
  · rw [hline]
  · unfold ownField
    rw [Option.bind_some, hsignificant, hentry, hcolumn, if_pos (by simp)]
    rw [hline]
    exact hvalue.2

/-! ## The keys of an entry, and its other lines -/

theorem filter_ownFields (keys : Option Nat) (lines : List Line) :
    (lines.filterMap (ownField keys)).filter (!isPinned ·) =
      (lines.filter fun line => !isPin keys line).filterMap (ownField keys) := by
  induction lines with
  | nil => rfl
  | cons line lines ih =>
      cases hfield : ownField keys line with
      | none =>
          have hpin : isPin keys line = false := by rw [isPin, hfield]; rfl
          rw [List.filterMap_cons_none hfield, ih, List.filter_cons_of_pos (by simp [hpin]),
            List.filterMap_cons_none hfield]
      | some field =>
          have hpin : isPin keys line = isPinned field := by rw [isPin, hfield]; rfl
          rw [List.filterMap_cons_some hfield]
          cases hpinned : isPinned field with
          | true =>
              rw [List.filter_cons_of_neg (by simp [hpinned]),
                List.filter_cons_of_neg (by simp [hpin, hpinned]), ih]
          | false =>
              rw [List.filter_cons_of_pos (by simp [hpinned]),
                List.filter_cons_of_pos (by simp [hpin, hpinned]), ih,
                List.filterMap_cons_some hfield]

theorem filter_fields (place : Place) : place.fields.filter (!isPinned ·) =
    ((beside place.dash).bind fun first => fieldOf first.2).toList.filter (!isPinned ·) ++
      place.kept.filterMap (ownField place.column) := by
  unfold Place.fields Images.fields
  rw [List.filter_append, filter_ownFields]
  rfl

theorem valuesOf_append (key : String) (first second : List Field) :
    valuesOf key (first ++ second) = valuesOf key first ++ valuesOf key second := by
  unfold valuesOf
  rw [List.filter_append, List.map_append]

/-- Where no line is a pin, none gives a pinned key a value. -/
theorem valuesOf_ownFields {keys : Option Nat} {lines : List Line}
    (h : ∀ line ∈ lines, isPin keys line = false) {key : String}
    (hkey : ∀ value, isPinned (key.toList, value) = true) :
    valuesOf key (lines.filterMap (ownField keys)) = [] := by
  unfold valuesOf
  rw [List.map_eq_nil_iff, List.filter_eq_nil_iff]
  intro field hfield hname
  obtain ⟨line, hline, hown⟩ := List.mem_filterMap.mp hfield
  have hpin := h line hline
  rw [isPin, hown] at hpin
  have hpinned := hkey field.2
  rw [← beq_iff_eq.mp hname] at hpinned
  rw [Option.any_some] at hpin
  rw [hpin] at hpinned
  cases hpinned

theorem valuesOf_newTag (tag digest : TextLine) :
    valuesOf "newTag" [("newTag".toList, tag), ("digest".toList, digest)] = [tag] := by
  simp [valuesOf]

theorem valuesOf_digest (tag digest : TextLine) :
    valuesOf "digest" [("newTag".toList, tag), ("digest".toList, digest)] = [digest] := by
  simp [valuesOf]

theorem isPinned_newTag (value : TextLine) : isPinned ("newTag".toList, value) = true := rfl

theorem isPinned_digest (value : TextLine) : isPinned ("digest".toList, value) = true := rfl

/-- The key that stands before the first colon. -/
theorem fieldOf_key {key after : TextLine} {field : Field} (hkey : ':' ∉ key)
    (h : fieldOf (key ++ ':' :: after) = some field) : field.1 = bare key := by
  have hbefore : ∀ c ∈ key, (c != ':') = true := fun c hc =>
    bne_iff_ne.mpr fun heq => hkey (heq ▸ hc)
  unfold fieldOf Scalar.readFrom at h
  rw [List.span_eq_takeWhile_dropWhile, List.takeWhile_append_of_pos hbefore,
    List.dropWhile_append_of_pos hbefore, List.takeWhile_cons_of_neg (by simp),
    List.dropWhile_cons_of_neg (by simp), List.append_nil] at h
  dsimp only at h
  split at h
  · rw [Option.map_map, Option.map_eq_some_iff] at h
    obtain ⟨value, -, rfl⟩ := h
    rfl
  · cases h

theorem isPin_of_field {keys : Option Nat} {line : Line} {field : Field}
    (h : ownField keys line = some field) (hpinned : isPinned field = true) :
    isPin keys line = true := by
  rw [isPin, h]
  exact hpinned

/-! ## An entry that is pinned the way it is written back -/

section Moved

variable {place : Place} {text repository version digest out : String} {own more : List Line}

namespace Place.IsPinned

theorem dashFed (h : place.IsPinned text repository own more) : IsFed place.dash :=
  h.fed _ (List.mem_append_right _ List.mem_cons_self)

theorem moreFed (h : place.IsPinned text repository own more) :
    ∀ line ∈ more ++ place.after, IsFed line :=
  fun line hline => h.fed line (List.mem_append_right _ (List.mem_cons_of_mem _ hline))

theorem contents (h : place.IsPinned text repository own more) :
    Text.lines text = place.before.map Line.content ++ place.dash.content ::
      (own.map Line.content ++ (more ++ place.after).map Line.content) := by
  rw [lines_eq_map, ← h.only.lines, Place.lines, h.split]
  simp only [List.map_append, List.map_cons, List.append_assoc]

theorem dashFits (h : place.IsPinned text repository own more) : FitsLine place.dash.content := by
  refine ⟨@newline_not_mem text _ ?_, h.dashFed.getLast?_ne⟩
  rw [h.contents]
  exact List.mem_append_right _ List.mem_cons_self

theorem stopsAt (h : place.IsPinned text repository own more) :
    ∀ other, ((more ++ place.after).map Line.content).head? = some other →
      continues place.dash.content other = false := by
  intro other hother
  rw [List.head?_map, Option.map_eq_some_iff] at hother
  obtain ⟨line, hline, rfl⟩ := hother
  exact h.stops line hline

theorem noneBefore (h : place.IsPinned text repository own more) :
    Blocks.NoEntry (opensEntryOf repository) (place.before.map Line.content) := by
  intro content hcontent
  obtain ⟨line, hline, rfl⟩ := List.mem_map.mp hcontent
  exact h.before line hline

/-- What moving the image writes. -/
theorem repin_eq (h : place.IsPinned text repository own more) :
    repin text repository version digest = .ok out ↔
      Blocks.NoEntry (opensEntryOf repository) ((more ++ place.after).map Line.content) ∧
        out = String.ofList (unlines (place.before.map Line.content ++ place.dash.content ::
          (pinLines version digest place.dash.content ++
            (more ++ place.after).map Line.content))) := by
  refine repin_eq_ok h.contents h.noneBefore h.opens (fun other hother => ?_) h.stopsAt
  obtain ⟨line, hline, rfl⟩ := List.mem_map.mp hother
  exact (h.pins line hline).1

theorem dashRest (h : place.IsPinned text repository own more) :
    place.dash.rest = marker repository ∧ indentOf place.dash.content = place.dash.spaces :=
  rest_of_opensEntryOf h.dashFed h.only.entry.dash h.opens

theorem columnOf (h : place.IsPinned text repository own more) (rest : List Line) :
    (place.withRest rest).column = some (place.dash.indent + 2) :=
  column_of_marker h.dashFed h.dashRest.1 rest

theorem newTagLine (h : place.IsPinned text repository own more)
    (hversion : ReadsBack "newTag" version) :
    IsPinLine place.dash "newTag" version (fedLine (keyLine place.dash.content "newTag" version)) :=
  isPinLine_fedLine h.dashFed h.dashFits h.dashRest.2 isKey_newTag (by decide) (by decide) hversion

theorem digestLine (h : place.IsPinned text repository own more)
    (hdigest : ReadsBack "digest" digest) :
    IsPinLine place.dash "digest" digest (fedLine (keyLine place.dash.content "digest" digest)) :=
  isPinLine_fedLine h.dashFed h.dashFits h.dashRest.2 isKey_digest (by decide) (by decide) hdigest

/-- The lines of an overlay whose image is moved. -/
theorem split_out (h : place.IsPinned text repository own more) (hversion : ReadsBack "newTag" version)
    (hdigest : ReadsBack "digest" digest)
    (hok : repin text repository version digest = .ok out) :
    Line.split out = (place.withRest
      ((pinLines version digest place.dash.content).map fedLine ++ more)).lines := by
  have hcontents := h.contents
  have hlines : ∀ content ∈ place.before.map Line.content ++ place.dash.content ::
      (pinLines version digest place.dash.content ++ (more ++ place.after).map Line.content),
      '\n' ∉ content := by
    intro content hcontent
    rw [List.mem_append, List.mem_cons, List.mem_append] at hcontent
    rcases hcontent with hmem | rfl | hmem | hmem
    · refine @newline_not_mem text _ ?_
      rw [hcontents]
      exact List.mem_append_left _ hmem
    · exact h.dashFits.1
    · exact (fitsLine_pinLines h.dashFits hversion.1 hdigest.1 content hmem).1
    · refine @newline_not_mem text _ ?_
      rw [hcontents]
      exact List.mem_append_right _ (List.mem_cons_of_mem _ (List.mem_append_right _ hmem))
  rw [(h.repin_eq.mp hok).2, split_unlines hlines, List.map_append, List.map_cons, List.map_append,
    map_fedLine fun line hline => h.fed line (List.mem_append_left _ hline), map_fedLine h.moreFed,
    h.dashFed]
  show _ = place.before ++ place.dash :: ((_ ++ more) ++ place.after)
  rw [List.append_assoc]

/-- The entry is one of the images still. -/
theorem isEntry (h : place.IsPinned text repository own more) (hversion : ReadsBack "newTag" version)
    (hdigest : ReadsBack "digest" digest) :
    (place.withRest
      ((pinLines version digest place.dash.content).map fedLine ++ more)).IsEntry := by
  have hentry := h.only.entry
  have hpin : ∀ line ∈ (pinLines version digest place.dash.content).map fedLine,
      line.indent = place.dash.indent + 2 := by
    intro line hline
    rcases List.mem_cons.mp hline with rfl | hline
    · exact (h.newTagLine hversion).indent
    · rw [List.mem_singleton.mp hline]
      exact (h.digestLine hdigest).indent
  have hmore : ∀ line ∈ more, line ∈ place.rest := by
    intro line hline
    rw [h.split]
    exact List.mem_append_right _ hline
  refine ⟨hentry.title, fun line hline => ?_, hentry.ends, hentry.dash, hentry.front,
    hentry.first, fun line hline hsignificant => ?_, fun keys hkeys line hline hsignificant => ?_,
    hentry.back⟩
  · have hinside := hentry.inside line
    rw [List.mem_append, List.mem_cons, List.mem_append] at hinside
    replace hline : line ∈ place.front ++ place.dash ::
        (((pinLines version digest place.dash.content).map fedLine ++ more) ++ place.back) := hline
    rw [List.mem_append, List.mem_cons, List.mem_append, List.mem_append] at hline
    rcases hline with hmem | hmem | (hmem | hmem) | hmem
    · exact hinside (.inl hmem)
    · exact hinside (.inr (.inl hmem))
    · have hindent := hpin line hmem
      rw [isTop, hindent]
      simp
    · exact hinside (.inr (.inr (.inl (hmore line hmem))))
    · exact hinside (.inr (.inr (.inr hmem)))
  · rcases List.mem_append.mp hline with hmem | hmem
    · have hindent := hpin line hmem
      show place.dash.indent < _
      omega
    · exact hentry.under line (hmore line hmem) hsignificant
  · rw [h.columnOf, Option.mem_some] at hkeys
    rcases List.mem_append.mp hline with hmem | hmem
    · have hindent := hpin line hmem
      omega
    · exact hentry.within keys (by rw [← hkeys]; exact h.columnOf place.rest) line
        (hmore line hmem) hsignificant

/-- The keys of the entry that is moved. -/
theorem fields_moved (h : place.IsPinned text repository own more)
    (hversion : ReadsBack "newTag" version) (hdigest : ReadsBack "digest" digest) :
    (place.withRest ((pinLines version digest place.dash.content).map fedLine ++ more)).fields =
      ((beside place.dash).bind fun first => fieldOf first.2).toList ++
        ([("newTag".toList, version.toList), ("digest".toList, digest.toList)] ++
          more.filterMap (ownField (some (place.dash.indent + 2)))) := by
  show Images.fields place.dash
    ((pinLines version digest place.dash.content).map fedLine ++ more) = _
  unfold Images.fields
  rw [column_of_marker h.dashFed h.dashRest.1, List.filterMap_append]
  show _ ++ (List.filterMap _ [_, _] ++ _) = _
  rw [List.filterMap_cons_some (h.newTagLine hversion).field,
    List.filterMap_cons_some (h.digestLine hdigest).field]
  rfl

theorem isPin_pinLines (h : place.IsPinned text repository own more)
    (hversion : ReadsBack "newTag" version) (hdigest : ReadsBack "digest" digest) :
    ∀ line ∈ (pinLines version digest place.dash.content).map fedLine,
      isPin (some (place.dash.indent + 2)) line = true := by
  intro line hline
  rcases List.mem_cons.mp hline with rfl | hline
  · exact isPin_of_field (h.newTagLine hversion).field rfl
  · rw [List.mem_singleton.mp hline]
    exact isPin_of_field (h.digestLine hdigest).field rfl

/-- What moving the image once more writes. -/
theorem repin_moved (h : place.IsPinned text repository own more)
    (hversion : ReadsBack "newTag" version) (hdigest : ReadsBack "digest" digest)
    (hok : repin text repository version digest = .ok out) (tag pinned : String) :
    repin out repository tag pinned = .ok (String.ofList (unlines
      (place.before.map Line.content ++ place.dash.content ::
        (pinLines tag pinned place.dash.content ++ (more ++ place.after).map Line.content)))) := by
  have hlines : Text.lines out = place.before.map Line.content ++ place.dash.content ::
      (pinLines version digest place.dash.content ++ (more ++ place.after).map Line.content) := by
    have hpins : ((pinLines version digest place.dash.content).map fedLine).map Line.content =
        pinLines version digest place.dash.content := by
      unfold pinLines
      rw [List.map_cons, List.map_cons, List.map_cons, List.map_cons,
        (h.newTagLine hversion).content, (h.digestLine hdigest).content]
      rfl
    rw [lines_eq_map, h.split_out hversion hdigest hok]
    show List.map Line.content (place.before ++ place.dash :: ((_ ++ more) ++ place.after)) = _
    rw [List.map_append, List.map_cons, List.map_append, List.map_append, hpins, List.map_append,
      List.append_assoc]
  exact (repin_eq_ok hlines h.noneBefore h.opens (pinLines_continue version digest _)
    h.stopsAt).mpr ⟨(h.repin_eq.mp hok).1, rfl⟩

/-- Where an image is pinned the way it is written back, moving it moves nothing else. -/
theorem moves (h : place.IsPinned text repository own more) (hversion : ReadsBack "newTag" version)
    (hdigest : ReadsBack "digest" digest)
    (hok : repin text repository version digest = .ok out) :
    MovesOneImage text repository version digest out := by
  obtain ⟨hnone, hout⟩ := h.repin_eq.mp hok
  have hsplit := h.split_out hversion hdigest hok
  have hcolumn : place.column = some (place.dash.indent + 2) := h.columnOf place.rest
  have hothers := h.others
  have hown : ∀ line ∈ own, isPin (some (place.dash.indent + 2)) line = true := by
    intro line hline
    rw [← hcolumn]
    exact (h.pins line hline).2
  rw [hcolumn] at hothers
  have hfields := h.fields_moved hversion hdigest
  -- The pinned lines go, the others stay.
  have hkept : ∀ pinned : List Line, (∀ line ∈ pinned,
      isPin (some (place.dash.indent + 2)) line = true) →
      (pinned ++ more).filter (fun line => !isPin (some (place.dash.indent + 2)) line) = more := by
    intro pinned hpinned
    rw [List.filter_append, List.filter_eq_nil_iff.mpr fun line hline => by simp [hpinned line hline],
      List.filter_eq_self.mpr fun line hline => by simp [hothers line hline], List.nil_append]
  have hkeptOld : place.kept = more := by
    unfold Place.kept
    rw [hcolumn, h.split]
    exact hkept own hown
  have hkeptNew : (place.withRest
      ((pinLines version digest place.dash.content).map fedLine ++ more)).kept = more := by
    unfold Place.kept
    rw [h.columnOf]
    exact hkept _ (h.isPin_pinLines hversion hdigest)
  -- What stands beside the dash is the name.
  have hbeside : ∀ field ∈ ((beside place.dash).bind fun first => fieldOf first.2).toList,
      field.1 = "name".toList := by
    intro field hfield
    rw [beside_of_marker h.dashFed h.dashRest.1, Option.bind_some, Option.mem_toList] at hfield
    exact @fieldOf_key "name".toList (' ' :: repository.toList) field (by decide) hfield
  have hnamed : ∀ key : String, key ≠ "name" →
      valuesOf key ((beside place.dash).bind fun first => fieldOf first.2).toList = [] := by
    intro key hkey
    unfold valuesOf
    rw [List.map_eq_nil_iff, List.filter_eq_nil_iff]
    intro field hfield hname
    rw [beq_iff_eq, hbeside field hfield] at hname
    exact hkey (String.toList_inj.mp hname.symm)
  refine ⟨place, _, h.only, hsplit.symm, h.isEntry hversion hdigest, hkeptNew.trans hkeptOld.symm,
    ?_, ?_, ?_, ?_, fun tag pinned hdeclared => ?_⟩
  · rw [filter_fields, filter_fields, hkeptNew, hkeptOld, h.columnOf, hcolumn]
    rfl
  · rw [hfields, valuesOf_append, hnamed "newTag" (by decide), valuesOf_append,
      valuesOf_ownFields hothers isPinned_newTag, valuesOf_newTag]
    rfl
  · rw [hfields, valuesOf_append, hnamed "digest" (by decide), valuesOf_append,
      valuesOf_ownFields hothers isPinned_digest, valuesOf_digest]
    rfl
  · -- Moved again, the lines written are the ones left out.
    rw [h.repin_moved hversion hdigest hok, ← hout]
  · rw [h.repin_moved hversion hdigest hok]
    have htext := text_eq text
    rw [← h.only.lines, Place.lines, h.split, h.restores tag pinned hdeclared, List.append_assoc,
      List.flatMap_append, List.flatMap_cons, List.flatMap_append, flatMap_fedLine,
      flatMap_fed fun line hline => h.fed line (List.mem_append_left _ hline),
      flatMap_fed h.moreFed, h.dashFed.text] at htext
    rw [Except.ok.injEq, ← String.toList_inj, String.toList_ofList, htext]
    simp only [unlines, List.flatMap_append, List.flatMap_cons]

end Place.IsPinned

end Moved

end Images
end PlatformGit
end SaasFabric
