import SaasFabric.PlatformGit.ImageMoved

/-!
# An image that every move moves alone

A move to a tag and a digest that no line of an overlay holds shows which lines are the entry's:
where it moves one image and nothing else, that image is pinned the way it is written back.
-/

namespace SaasFabric
namespace PlatformGit
namespace Images

open Argo (Line Scalar)
open Library

/-! ## What a value is read from -/

theorem infix_bare (text : TextLine) : bare text <:+: text := by
  have hstrip : ∀ {quote : Char} {inner : TextLine},
      Scalar.stripQuotes quote text = some inner → inner <:+: text := by
    intro quote inner h
    unfold Scalar.stripQuotes at h
    split at h
    · next c rest =>
        split at h
        · split at h
          · next last body hrest =>
              split at h
              · rw [Option.some.injEq] at h
                have hback := congrArg List.reverse hrest
                rw [List.reverse_reverse, List.reverse_cons, h] at hback
                rw [hback]
                exact ⟨[c], [last], rfl⟩
              · cases h
          · cases h
        · cases h
    · cases h
  unfold bare
  cases hdouble : Scalar.stripQuotes '"' text with
  | some inner => exact hstrip hdouble
  | none =>
      cases hsingle : Scalar.stripQuotes '\'' text with
      | some inner => exact hstrip hsingle
      | none => exact List.infix_rfl

theorem prefix_beforeComment (before : Option Char) (text : TextLine) :
    Argo.beforeComment before text <+: text := by
  induction text generalizing before with
  | nil => exact List.prefix_rfl
  | cons c text ih =>
      unfold Argo.beforeComment
      split
      · exact List.nil_prefix
      · exact List.cons_prefix_cons.mpr ⟨rfl, ih (some c)⟩

theorem prefix_trimEnd (text : TextLine) : Argo.trimEnd text <+: text :=
  List.rdropWhile_prefix isWhitespace text

theorem prefix_of_splitValue {tail value suffix : TextLine}
    (h : Argo.splitValue tail = some (value, suffix)) : value <+: tail := by
  unfold Argo.splitValue at h
  split at h
  · cases h
    exact List.prefix_rfl
  · next c body =>
      split at h
      · cases h
        exact List.nil_prefix
      · split at h
        · unfold Argo.splitQuoted at h
          rw [List.span_eq_takeWhile_dropWhile] at h
          have hsplit := @List.takeWhile_append_dropWhile _ (fun d => d != c) body
          have hhead := List.head?_dropWhile_not (fun d => d != c) body
          split at h
          · cases h
          · next inner d rest hspan =>
              obtain ⟨hinner, hrest⟩ := Prod.mk.inj hspan
              rw [hinner, hrest] at hsplit
              rw [hrest] at hhead
              have hd : d = c := by simpa using hhead
              split at h
              · cases h
              · split at h
                · cases h
                  rw [← hsplit, hd]
                  exact ⟨suffix, by simp⟩
                · cases h
        · cases h
          exact (prefix_trimEnd _).trans (prefix_beforeComment none _)

theorem infix_value {part : TextLine} {field : Field} (h : fieldOf part = some field) :
    field.2 <:+: part := by
  unfold fieldOf Scalar.readFrom at h
  rw [List.span_eq_takeWhile_dropWhile] at h
  have hsplit := @List.takeWhile_append_dropWhile _ (· != ':') part
  split at h
  · cases h
  · next key c after hspan =>
      obtain ⟨-, hafter⟩ := Prod.mk.inj hspan
      split at h
      · rw [Option.map_map, Option.map_eq_some_iff] at h
        obtain ⟨⟨value, suffix⟩, hvalue, rfl⟩ := h
        have htail : value <:+: after :=
          (prefix_of_splitValue hvalue).isInfix.trans (List.dropWhile_suffix _).isInfix
        refine ((infix_bare value).trans htail).trans ?_
        refine List.IsSuffix.isInfix ⟨part.takeWhile (· != ':') ++ [c], ?_⟩
        rw [List.append_assoc, List.singleton_append, ← hafter]
        exact hsplit
      · cases h

theorem splitValue_of_return {tail : TextLine} (h : (Argo.splitValue (tail ++ ['\r'])).isSome) :
    (Argo.splitValue tail).isSome = true := by
  cases tail with
  | nil => rfl
  | cons c body =>
      unfold Argo.splitValue at h ⊢
      rw [List.cons_append] at h
      dsimp only at h ⊢
      split
      · rfl
      · next hsharp =>
          rw [if_neg hsharp] at h
          split
          · next hquote =>
              rw [if_pos hquote] at h
              unfold Argo.splitQuoted at h ⊢
              rw [List.span_eq_takeWhile_dropWhile] at h ⊢
              cases hdrop : body.dropWhile (· != c) with
              | nil =>
                  -- The quote does not end: a carriage return is none.
                  rw [List.dropWhile_append, hdrop] at h
                  have hc : ('\r' != c) = true := by
                    rw [Bool.or_eq_true, decide_eq_true_eq, decide_eq_true_eq] at hquote
                    rcases hquote with rfl | rfl
                    · decide
                    · decide
                  simp [hc] at h
              | cons d suffix =>
                  have hmem : ¬ (body.dropWhile (· != c)).isEmpty = true := by
                    rw [hdrop]
                    exact Bool.false_ne_true
                  rw [List.dropWhile_append, if_neg hmem, hdrop, List.cons_append] at h
                  have htake : (body ++ ['\r']).takeWhile (· != c) = body.takeWhile (· != c) := by
                    rw [List.takeWhile_append, if_neg]
                    intro hlength
                    have hnil := List.dropWhile_eq_nil_iff.mpr
                      (List.takeWhile_eq_self_iff.mp
                        ((List.takeWhile_prefix (· != c)).eq_of_length hlength))
                    rw [hdrop] at hnil
                    cases hnil
                  rw [htake] at h
                  dsimp only at h ⊢
                  split
                  · next hescape =>
                      rw [if_pos hescape] at h
                      cases h
                  · next hescape =>
                      rw [if_neg hescape] at h
                      split
                      · rfl
                      · next hseparated =>
                          rw [if_neg] at h
                          · cases h
                          · cases suffix with
                            | nil =>
                                unfold Argo.separated
                                decide
                            | cons e suffix => exact hseparated
          · rfl

/-- A key is read as it is without a carriage return at the end. -/
theorem fieldOf_of_return {part : TextLine} {field : Field}
    (h : fieldOf (part ++ ['\r']) = some field) :
    ∃ value, fieldOf part = some (field.1, value) := by
  unfold fieldOf Scalar.readFrom at h ⊢
  rw [List.span_eq_takeWhile_dropWhile] at h ⊢
  cases hdrop : part.dropWhile (· != ':') with
  | nil =>
      have hall := List.dropWhile_eq_nil_iff.mp hdrop
      have hpart : ∀ c ∈ part ++ ['\r'], (c != ':') = true := by
        intro c hc
        rcases List.mem_append.mp hc with hc | hc
        · exact hall c hc
        · rw [List.mem_singleton.mp hc]
          decide
      rw [List.dropWhile_eq_nil_iff.mpr hpart] at h
      cases h
  | cons d after =>
      have hmem : ¬ (part.dropWhile (· != ':')).isEmpty = true := by
        rw [hdrop]
        exact Bool.false_ne_true
      have htake : (part ++ ['\r']).takeWhile (· != ':') = part.takeWhile (· != ':') := by
        rw [List.takeWhile_append, if_neg]
        intro hlength
        have hnil := List.dropWhile_eq_nil_iff.mpr
          (List.takeWhile_eq_self_iff.mp
            ((List.takeWhile_prefix (· != ':')).eq_of_length hlength))
        rw [hdrop] at hnil
        cases hnil
      rw [List.dropWhile_append, if_neg hmem, hdrop, List.cons_append, htake] at h
      dsimp only at h ⊢
      split at h
      · next hsep =>
          -- What follows the colon is separation before the carriage return, too.
          cases after with
          | nil => exact absurd hsep (by decide)
          | cons e after =>
              have hsep' : ((e :: after).isEmpty ||
                  (e :: after).head?.any Argo.isSeparation) = true := by simpa using hsep
              rw [if_pos hsep']
              rw [Option.map_map, Option.map_eq_some_iff] at h
              obtain ⟨found, hfound, rfl⟩ := h
              have htail : ((e :: after) ++ ['\r']).dropWhile Argo.isSeparation =
                  (e :: after).dropWhile Argo.isSeparation ++ ['\r'] := by
                rw [List.dropWhile_append]
                split
                · next hempty =>
                    rw [List.isEmpty_iff.mp hempty]
                    rfl
                · rfl
              rw [htail] at hfound
              have hsome := splitValue_of_return (by rw [hfound]; rfl)
              obtain ⟨value, hvalue⟩ := Option.isSome_iff_exists.mp hsome
              rw [hvalue]
              exact ⟨_, rfl⟩
      · cases h

theorem beforeComment_of_not_mem {text : TextLine} (h : '#' ∉ text) (before : Option Char) :
    Argo.beforeComment before text = text := by
  induction text generalizing before with
  | nil => rfl
  | cons c text ih =>
      rw [List.mem_cons, not_or] at h
      have hc : (decide (c = '#') && before.any Argo.isSeparation) = false := by
        simp [Ne.symm h.1]
      rw [Argo.beforeComment, hc, if_neg Bool.false_ne_true, ih h.2]

theorem bare_of_head {c : Char} (hdouble : c ≠ '"') (hsingle : c ≠ '\'') (text : TextLine) :
    bare (c :: text) = c :: text := by
  unfold bare Scalar.stripQuotes
  dsimp only
  rw [if_neg hdouble, if_neg hsingle]
  rfl

/-- A value of plain characters reads as it is written. -/
theorem fieldOf_plain {key value : TextLine} {c : Char} (hkey : ':' ∉ key) (hbare : bare key = key)
    (hvalue : value = c :: value.tail)
    (hplain : ∀ d ∈ value, d ≠ '#' ∧ d ≠ '"' ∧ d ≠ '\'' ∧ isWhitespace d = false) :
    fieldOf (key ++ [':', ' '] ++ value) = some (key, value) := by
  have hbefore : ∀ c ∈ key, (c != ':') = true := fun c hc =>
    bne_iff_ne.mpr fun heq => hkey (heq ▸ hc)
  have hc := hplain c (by rw [hvalue]; exact List.mem_cons_self)
  have hsharp : '#' ∉ value := fun hmem => (hplain '#' hmem).1 rfl
  have htrim : Argo.trimEnd value = value := by
    refine List.rdropWhile_eq_self_iff.mpr fun hne hlast => ?_
    rw [(hplain _ (List.getLast_mem hne)).2.2.2] at hlast
    cases hlast
  have hseparation : Argo.isSeparation c = false := by
    rw [Bool.eq_false_iff]
    intro hsep
    unfold Argo.isSeparation at hsep
    rw [Bool.or_eq_true, decide_eq_true_eq, decide_eq_true_eq] at hsep
    have hwhite := hc.2.2.2
    rcases hsep with rfl | rfl
    · revert hwhite
      decide
    · revert hwhite
      decide
  have hsplit : Argo.splitValue value = some (value, []) := by
    have hdrop : value.drop value.length = [] := List.drop_length
    rw [hvalue] at hdrop htrim hsharp ⊢
    unfold Argo.splitValue
    dsimp only
    rw [if_neg hc.1, if_neg (by simp [hc.2.1, hc.2.2.1]), beforeComment_of_not_mem hsharp, htrim,
      hdrop]
  have hspace : (' ' :: value).dropWhile Argo.isSeparation = value := by
    rw [List.dropWhile_cons_of_pos (by decide), hvalue, List.dropWhile_cons_of_neg (by simp [hseparation])]
  unfold fieldOf Scalar.readFrom
  rw [List.append_assoc, List.span_eq_takeWhile_dropWhile, List.takeWhile_append_of_pos hbefore,
    List.dropWhile_append_of_pos hbefore]
  show Option.map _ (if _ then Option.map _ (Argo.splitValue ((' ' :: value).dropWhile _)) else _) = _
  rw [if_pos (by rfl), hspace, hsplit]
  show some (bare (key ++ []), bare value) = _
  rw [List.append_nil, hbare, hvalue, bare_of_head hc.2.1 hc.2.2.1]

/-! ## A line, written back -/

theorem prefix_content_fedLine (content : TextLine) : (fedLine content).content <+: content := by
  rcases getLast?_cases content with hnot | ⟨first, rfl⟩
  · simp [content_fedLine hnot]
  · rw [content_fedLine_return]
    exact List.prefix_append _ _

theorem spaces_read (raw : TextLine) :
    (Line.read raw).spaces = (Line.read raw).content.takeWhile (· = ' ') := rfl

theorem rest_read (raw : TextLine) :
    (Line.read raw).rest = (Line.read raw).content.dropWhile (· = ' ') := rfl

/-- A pin is one when it is written back. -/
theorem isPin_fedLine {raw : TextLine} {keys : Option Nat} (h : isPin keys (Line.read raw) = true) :
    isPin keys (fedLine (Line.read raw).content) = true := by
  have hspaces := spaces_read raw
  have hrest := rest_read raw
  have hspaces' := spaces_read ((Line.read raw).content ++ ['\n'])
  have hrest' := rest_read ((Line.read raw).content ++ ['\n'])
  change (fedLine (Line.read raw).content).spaces =
    (fedLine (Line.read raw).content).content.takeWhile _ at hspaces'
  change (fedLine (Line.read raw).content).rest =
    (fedLine (Line.read raw).content).content.dropWhile _ at hrest'
  generalize Line.read raw = line at *
  rcases getLast?_cases line.content with hnot | ⟨first, hcontent⟩
  · rw [content_fedLine hnot, ← hspaces] at hspaces'
    rw [content_fedLine hnot, ← hrest] at hrest'
    unfold isPin ownField Line.isSignificant Line.indent Line.opensEntry at h ⊢
    rw [hspaces', hrest']
    exact h
  · rw [hcontent, content_fedLine_return] at hspaces' hrest'
    rw [hcontent] at hspaces hrest
    -- The carriage return ends what follows the indentation.
    have hindent : line.spaces = first.takeWhile (· = ' ') := by
      rw [hspaces, List.takeWhile_append]
      split
      · next hall =>
          rw [(List.takeWhile_prefix _).eq_of_length hall]
          exact List.append_nil _
      · rfl
    have hreturn : line.rest = first.dropWhile (· = ' ') ++ ['\r'] := by
      rw [hrest, List.dropWhile_append]
      split
      · next hempty =>
          rw [List.isEmpty_iff.mp hempty]
          rfl
      · rfl
    rw [← hcontent] at hspaces' hrest'
    generalize fedLine line.content = written at *
    rw [← hindent] at hspaces'
    rw [← hrest'] at hreturn
    cases keys with
    | none => exact h
    | some keys =>
        unfold isPin ownField at h
        rw [Option.bind_some] at h
        split at h
        · next hcondition =>
            simp only [Bool.and_eq_true, beq_iff_eq, Bool.not_eq_true'] at hcondition
            obtain ⟨⟨hsignificant, hkeys⟩, hentry⟩ := hcondition
            obtain ⟨field, hfield, hpinned⟩ := (Option.any_eq_true _ _).mp h
            rw [hreturn] at hfield
            obtain ⟨value, hvalue⟩ := fieldOf_of_return hfield
            have hcolon : ∃ c ∈ written.rest, isWhitespace c = false := by
              by_contra hnone
              push Not at hnone
              have hno : ∀ c ∈ written.rest, (c != ':') = true := by
                intro c hc
                rw [bne_iff_ne]
                rintro rfl
                exact hnone ':' hc (by decide)
              unfold fieldOf Scalar.readFrom at hvalue
              rw [List.span_eq_takeWhile_dropWhile, List.dropWhile_eq_nil_iff.mpr hno] at hvalue
              cases hvalue
            have hsignificant' : written.isSignificant = true := by
              unfold Line.isSignificant at hsignificant ⊢
              rw [hreturn, List.dropWhile_append, if_neg] at hsignificant
              · cases hdrop : written.rest.dropWhile isWhitespace with
                | nil =>
                    obtain ⟨c, hc, hblank⟩ := hcolon
                    rw [List.dropWhile_eq_nil_iff.mp hdrop c hc] at hblank
                    cases hblank
                | cons c rest =>
                    rw [hdrop] at hsignificant
                    exact hsignificant
              · rw [List.isEmpty_iff]
                intro hnil
                obtain ⟨c, hc, hblank⟩ := hcolon
                rw [List.dropWhile_eq_nil_iff.mp hnil c hc] at hblank
                cases hblank
            have hentry' : written.opensEntry = false := by
              rw [Bool.eq_false_iff, Ne] at hentry ⊢
              intro hopens
              unfold Line.opensEntry at hentry hopens
              rw [Bool.or_eq_true, beq_iff_eq, List.isPrefixOf_iff_prefix] at hopens hentry
              rcases hopens with hone | hstarts
              · rw [hone] at hvalue
                revert hvalue
                exact nofun
              · refine hentry (.inr ?_)
                rw [hreturn]
                exact hstarts.trans (List.prefix_append _ _)
            refine @isPin_of_field _ _ (field.1, value) ?_ hpinned
            unfold ownField
            rw [Option.bind_some, hsignificant', hentry', if_pos, hvalue]
            unfold Line.indent at hkeys ⊢
            rw [hspaces', hkeys]
            simp
        · cases h

/-! ## Where a key is read -/

theorem mem_fields {dash : Line} {rest : List Line} {field : Field} (h : field ∈ fields dash rest) :
    ((beside dash).bind fun first => fieldOf first.2) = some field ∨
      ∃ line ∈ rest, ownField (column dash rest) line = some field := by
  rcases List.mem_append.mp h with hmem | hmem
  · exact .inl (Option.mem_toList.mp hmem)
  · obtain ⟨line, hline, hown⟩ := List.mem_filterMap.mp hmem
    exact .inr ⟨line, hline, hown⟩

theorem ownField_eq_some {keys : Option Nat} {line : Line} {field : Field}
    (h : ownField keys line = some field) :
    keys = some line.indent ∧ line.isSignificant = true ∧ line.opensEntry = false ∧
      fieldOf line.rest = some field := by
  unfold ownField at h
  obtain ⟨column, hcolumn, hfield⟩ := Option.bind_eq_some_iff.mp h
  split at hfield
  · next hcondition =>
      simp only [Bool.and_eq_true, beq_iff_eq, Bool.not_eq_true'] at hcondition
      obtain ⟨⟨hsignificant, hindent⟩, hentry⟩ := hcondition
      exact ⟨by rw [hcolumn, hindent], hsignificant, hentry, hfield⟩
  · cases hfield

/-- A value that an entry gives a key stands on one of its lines. -/
theorem exists_line_of_mem_fields {dash : Line} {rest : List Line} {field : Field}
    (hdash : dash.content = dash.spaces ++ dash.rest)
    (hrest : ∀ line ∈ rest, line.content = line.spaces ++ line.rest)
    (h : field ∈ fields dash rest) : ∃ line ∈ dash :: rest, field.2 <:+: line.content := by
  rcases mem_fields h with hbeside | ⟨line, hline, hown⟩
  · obtain ⟨first, hfirst, hfield⟩ := Option.bind_eq_some_iff.mp hbeside
    refine ⟨dash, List.mem_cons_self, (infix_value hfield).trans ?_⟩
    unfold beside Line.afterDash at hfirst
    split at hfirst
    · next after hafter =>
        dsimp only at hfirst
        split at hfirst
        · cases hfirst
        · rw [Option.filter_eq_some_iff, Option.some.injEq] at hfirst
          rw [← hfirst.1, hdash, hafter]
          refine (List.dropWhile_suffix _).isInfix.trans ?_
          exact ⟨dash.spaces ++ ['-'], [], by simp⟩
    · cases hfirst
  · refine ⟨line, List.mem_cons_of_mem _ hline, (infix_value (ownField_eq_some hown).2.2.2).trans ?_⟩
    rw [hrest line hline]
    exact (List.suffix_append _ _).isInfix

/-- A pinned key is an entry's own only where the entry is indented by spaces. -/
theorem indent_of_ownField {key value : String} {line : TextLine} {keys : Option Nat} {field : Field}
    (hkey : IsKey key) (hcolon : ':' ∉ key.toList)
    (hlast : (keyLine line key value).getLast? ≠ some '\r') (hname : field.1 = key.toList)
    (h : ownField keys (fedLine (keyLine line key value)) = some field) :
    (∀ c ∈ indentOf line, c = ' ') ∧ keys = some ((indentOf line).length + 2) := by
  obtain ⟨c, more, hc, -, hblank⟩ := hkey
  obtain ⟨hkeys, -, -, hfield⟩ := ownField_eq_some h
  rw [keyLine_eq] at hlast hkeys hfield
  have hspaces : ∀ d ∈ indentOf line, d = ' ' := by
    -- Another blank is where the line starts, so it would be part of the key that is read.
    by_contra hnot
    push Not at hnot
    obtain ⟨d, hd, hne⟩ := hnot
    have hwhite : ∀ e ∈ continuation line, isWhitespace e = true := by
      intro e he
      rcases List.mem_append.mp he with he | he
      · exact List.mem_takeWhile_imp he
      · have hspace : e = ' ' := by simpa using he
        rw [hspace]
        rfl
    have hfirst : ∃ e gap, (continuation line).dropWhile (· = ' ') = e :: gap ∧
        isWhitespace e = true ∧ ∀ f ∈ gap, isWhitespace f = true := by
      cases hdrop : (continuation line).dropWhile (· = ' ') with
      | nil =>
          have hall := List.dropWhile_eq_nil_iff.mp hdrop d (List.mem_append_left _ hd)
          exact absurd (of_decide_eq_true hall) hne
      | cons e gap =>
          have hsub : ∀ f ∈ e :: gap, isWhitespace f = true := fun f hf =>
            hwhite f ((List.dropWhile_suffix _).subset (hdrop ▸ hf))
          exact ⟨e, gap, rfl, hsub e List.mem_cons_self,
            fun f hf => hsub f (List.mem_cons_of_mem _ hf)⟩
    obtain ⟨e, gap, hdrop, he, hgap⟩ := hfirst
    have hrest : (fedLine (continuation line ++
        (key.toList ++ [':', ' '] ++ value.toList))).rest =
          (e :: gap ++ key.toList) ++ ':' :: (' ' :: value.toList) := by
      have hread := rest_read (continuation line ++ (key.toList ++ [':', ' '] ++ value.toList) ++ ['\n'])
      change (fedLine _).rest = (fedLine _).content.dropWhile _ at hread
      rw [hread, content_fedLine hlast, List.dropWhile_append, hdrop, if_neg (by simp)]
      simp
    have hblankless : ∀ sign : Char, isWhitespace sign = false → e ≠ sign := by
      rintro sign hsign rfl
      rw [hsign] at he
      cases he
    have hnocolon : ':' ∉ e :: gap ++ key.toList := by
      intro hmem
      rcases List.mem_append.mp hmem with hmem | hmem
      · rcases List.mem_cons.mp hmem with hsame | hmem
        · exact hblankless ':' (by decide) hsame.symm
        · have hcolon := hgap ':' hmem
          revert hcolon
          decide
      · exact hcolon hmem
    rw [hrest] at hfield
    have hread := fieldOf_key hnocolon hfield
    rw [List.cons_append, bare_of_head (hblankless '"' (by decide)) (hblankless '\'' (by decide)), hname,
      hc] at hread
    exact hblankless c hblank (List.cons.inj hread).1.symm
  refine ⟨hspaces, ?_⟩
  have hall : ∀ d ∈ continuation line, d = ' ' := by
    intro d hd
    rcases List.mem_append.mp hd with hd | hd
    · exact hspaces d hd
    · simpa using hd
  have hhead : (key.toList ++ [':', ' '] ++ value.toList).head? ≠ some ' ' := by
    rw [hc]
    intro heq
    have heq : c = ' ' := Option.some.inj heq
    rw [heq] at hblank
    exact absurd hblank (by decide)
  rw [hkeys, fedLine_eq hall hhead hlast]
  unfold Line.indent continuation
  rw [List.length_append]
  rfl

/-- The line that opens an entry, indented by spaces, written back. -/
theorem fedLine_opening {repository : String} {line : TextLine}
    (h : opensEntryOf repository line = true) (hspaces : ∀ c ∈ indentOf line, c = ' ') :
    (fedLine line).indent = (indentOf line).length ∧ (fedLine line).isSignificant = true := by
  have hline : line = indentOf line ++ '-' :: ' ' :: ("name: ".toList ++ repository.toList) := by
    unfold opensEntryOf at h
    rw [beq_iff_eq, marker_eq] at h
    rw [← h]
    exact List.takeWhile_append_dropWhile.symm
  have hcontent : ∃ body, (fedLine line).content = indentOf line ++ '-' :: body := by
    rcases getLast?_cases line with hnot | ⟨first, hfirst⟩
    · rw [content_fedLine hnot]
      exact ⟨_, hline⟩
    · -- A carriage return at the end is the repository's, and goes.
      obtain ⟨body, c, hbody⟩ := (List.eq_nil_or_concat (' ' :: ("name: ".toList ++
        repository.toList))).resolve_left (List.cons_ne_nil _ _)
      rw [List.concat_eq_append] at hbody
      rw [hbody, hfirst, ← List.cons_append, ← List.append_assoc] at hline
      obtain ⟨hstart, -⟩ := List.append_inj' hline rfl
      rw [hfirst, content_fedLine_return, ← hfirst]
      exact ⟨body, by rw [hfirst]; exact hstart⟩
  obtain ⟨body, hbody⟩ := hcontent
  have hall : ∀ c ∈ indentOf line, decide (c = ' ') = true := fun c hc =>
    decide_eq_true (hspaces c hc)
  have hindent := spaces_read (line ++ ['\n'])
  have hrest := rest_read (line ++ ['\n'])
  change (fedLine line).spaces = (fedLine line).content.takeWhile _ at hindent
  change (fedLine line).rest = (fedLine line).content.dropWhile _ at hrest
  rw [hbody, List.takeWhile_append_of_pos hall, List.takeWhile_cons_of_neg (by decide),
    List.append_nil] at hindent
  rw [hbody, List.dropWhile_append_of_pos hall, List.dropWhile_cons_of_neg (by decide)] at hrest
  refine ⟨congrArg List.length hindent, ?_⟩
  unfold Line.isSignificant
  rw [hrest, List.dropWhile_cons_of_neg (by decide)]
  rfl

theorem opensEntry_keyLine {key value : String} {line : TextLine} (hkey : IsKey key)
    (hlast : (keyLine line key value).getLast? ≠ some '\r') :
    (fedLine (keyLine line key value)).opensEntry = false := by
  obtain ⟨c, more, hc, hdash, hblank⟩ := hkey
  rw [Bool.eq_false_iff]
  intro hopens
  obtain ⟨rest, hrest⟩ : ∃ rest, (fedLine (keyLine line key value)).rest = '-' :: rest := by
    unfold Line.opensEntry at hopens
    rw [Bool.or_eq_true, beq_iff_eq, List.isPrefixOf_iff_prefix] at hopens
    rcases hopens with hone | ⟨after, hafter⟩
    · exact ⟨[], hone⟩
    · exact ⟨' ' :: after, hafter.symm⟩
  have hcontent := read_content (keyLine line key value ++ ['\n'])
  have hspaces := read_spaces (keyLine line key value ++ ['\n'])
  have hwhole := content_fedLine hlast
  change (fedLine _).content = (fedLine _).spaces ++ (fedLine _).rest at hcontent
  change ∀ c ∈ (fedLine (keyLine line key value)).spaces, c = ' ' at hspaces
  generalize fedLine (keyLine line key value) = written at *
  have hwhite : ∀ c ∈ written.spaces, isWhitespace c = true := by
    intro c hc
    rw [hspaces c hc]
    rfl
  have hdrop := congrArg (List.dropWhile isWhitespace) hcontent
  rw [hwhole, keyLine_eq, dropWhile_whitespace_continuation, hc,
    List.dropWhile_append_of_pos hwhite, hrest, List.dropWhile_cons_of_neg (by decide),
    List.cons_append, List.cons_append, List.dropWhile_cons_of_neg (by simp [hblank])] at hdrop
  exact hdash (List.cons.inj hdrop).1

/-! ## The entry that a probe shows -/

/-- A tag and a digest that no line of an overlay holds, and where rewriting writes them. -/
structure IsProbe (text repository version digest : String) (before : List TextLine)
    (line : TextLine) (body after : List TextLine) : Prop where
  lines : Text.lines text = before ++ line :: (body ++ after)
  opens : opensEntryOf repository line = true
  noneBefore : Blocks.NoEntry (opensEntryOf repository) before
  body : ∀ other ∈ body, continues line other = true
  stops : ∀ other, after.head? = some other → continues line other = false
  noneAfter : Blocks.NoEntry (opensEntryOf repository) after
  versionReads : ReadsBack "newTag" version
  digestReads : ReadsBack "digest" digest
  versionFresh : ∀ content ∈ Text.lines text, ¬ version.toList <:+: content
  digestFresh : ∀ content ∈ Text.lines text, ¬ digest.toList <:+: content
  versionApart : ¬ version.toList <:+: keyLine line "digest" digest
  digestApart : ¬ digest.toList <:+: keyLine line "newTag" version

section Probe

variable {text repository version digest : String} {before body after : List TextLine}
  {line : TextLine}

/-- The lines that rewriting writes. -/
def writtenLines (version digest : String) (before : List TextLine) (line : TextLine)
    (after : List TextLine) : List Line :=
  (before ++ line :: (pinLines version digest line ++ after)).map fedLine

theorem newline_not_mem_keyLine {key value : String} (hline : '\n' ∉ line)
    (hkey : '\n' ∉ key.toList) (hvalue : '\n' ∉ value.toList) :
    '\n' ∉ keyLine line key value := by
  rw [keyLine_eq]
  simp only [List.mem_append, not_or]
  refine ⟨fun hmem => ?_, ⟨hkey, by decide⟩, hvalue⟩
  rcases List.mem_append.mp hmem with hindent | hspace
  · exact hline ((List.takeWhile_prefix _).subset hindent)
  · revert hspace
    decide

theorem newline_not_mem_line (hlines : Text.lines text = before ++ line :: (body ++ after)) :
    '\n' ∉ line := by
  refine @newline_not_mem text _ ?_
  rw [hlines]
  exact List.mem_append_right _ List.mem_cons_self

theorem IsProbe.fits (h : IsProbe text repository version digest before line body after)
    {key value : String} (hkey : '\n' ∉ key.toList) (hvalue : FitsLine value.toList) :
    '\n' ∉ keyLine line key value ∧ (keyLine line key value).getLast? ≠ some '\r' := by
  refine ⟨newline_not_mem_keyLine (newline_not_mem_line h.lines) hkey hvalue.1, ?_⟩
  rw [keyLine, List.getLast?_append, List.getLast?_append]
  cases hlast : value.toList.getLast? with
  | none => simp
  | some c =>
      have hc : c ≠ '\r' := fun hc => hvalue.2 (by rw [hlast, hc])
      simpa using hc

theorem IsProbe.fits_newTag (h : IsProbe text repository version digest before line body after) :
    '\n' ∉ keyLine line "newTag" version ∧
      (keyLine line "newTag" version).getLast? ≠ some '\r' :=
  h.fits (by decide) h.versionReads.1

theorem IsProbe.fits_digest (h : IsProbe text repository version digest before line body after) :
    '\n' ∉ keyLine line "digest" digest ∧
      (keyLine line "digest" digest).getLast? ≠ some '\r' :=
  h.fits (by decide) h.digestReads.1

/-- What a line of a text does not hold, it does not hold written back. -/
theorem not_infix_fedLine {value content : TextLine} (h : ¬ value <:+: content) :
    ¬ value <:+: (fedLine content).content :=
  fun hfound => h (List.IsInfix.trans hfound (prefix_content_fedLine content).isInfix)

/-- A value on a line that is written stands on the line written for it. -/
theorem IsProbe.eq_of_infix (h : IsProbe text repository version digest before line body after)
    {written : Line} (hwritten : written ∈ writtenLines version digest before line after) :
    (version.toList <:+: written.content →
      written = fedLine (keyLine line "newTag" version)) ∧
    (digest.toList <:+: written.content → written = fedLine (keyLine line "digest" digest)) := by
  have hkept : ∀ content ∈ before ++ line :: (body ++ after),
      ¬ version.toList <:+: (fedLine content).content ∧
        ¬ digest.toList <:+: (fedLine content).content := by
    intro content hcontent
    rw [← h.lines] at hcontent
    exact ⟨not_infix_fedLine (h.versionFresh content hcontent),
      not_infix_fedLine (h.digestFresh content hcontent)⟩
  obtain ⟨content, hcontent, rfl⟩ := List.mem_map.mp hwritten
  rw [List.mem_append, List.mem_cons, List.mem_append] at hcontent
  rcases hcontent with hmem | rfl | hmem | hmem
  · have hnot := hkept content (List.mem_append_left _ hmem)
    exact ⟨fun hfound => absurd hfound hnot.1, fun hfound => absurd hfound hnot.2⟩
  · have hnot := hkept content (List.mem_append_right _ List.mem_cons_self)
    exact ⟨fun hfound => absurd hfound hnot.1, fun hfound => absurd hfound hnot.2⟩
  · rcases List.mem_cons.mp hmem with rfl | hmem
    · exact ⟨fun _ => rfl, fun hfound => absurd hfound (not_infix_fedLine h.digestApart)⟩
    · rw [List.mem_singleton.mp hmem]
      exact ⟨fun hfound => absurd hfound (not_infix_fedLine h.versionApart), fun _ => rfl⟩
  · have hnot := hkept content
      (List.mem_append_right _ (List.mem_cons_of_mem _ (List.mem_append_right _ hmem)))
    exact ⟨fun hfound => absurd hfound hnot.1, fun hfound => absurd hfound hnot.2⟩

theorem mem_of_valuesOf {key : String} {value : TextLine} {found : List Field}
    (h : valuesOf key found = [value]) : (key.toList, value) ∈ found := by
  have hmem : value ∈ valuesOf key found := h ▸ List.mem_singleton_self value
  obtain ⟨⟨name, same⟩, hfield, rfl⟩ := List.mem_map.mp hmem
  obtain ⟨hfield, hname⟩ := List.mem_filter.mp hfield
  rw [← beq_iff_eq.mp hname]
  exact hfield

/-- A value that stands on one line of an entry is that line's own, where the line opens none. -/
theorem found_under {place : Place} {key value : String} {found : Line}
    (hread : ∀ other ∈ place.dash :: place.rest, other.content = other.spaces ++ other.rest)
    (hdash : place.dash.opensEntry = true) (hnot : found.opensEntry = false)
    (honly : ∀ other ∈ place.dash :: place.rest, value.toList <:+: other.content → other = found)
    (hvalues : valuesOf key place.fields = [value.toList]) :
    found ∈ place.rest ∧ ownField place.column found = some (key.toList, value.toList) := by
  rcases mem_fields (mem_of_valuesOf hvalues) with hbeside | ⟨other, hother, hown⟩
  · -- Beside the dash, it would stand on a line that opens no entry.
    have hone : (key.toList, value.toList) ∈ fields place.dash [] := by
      unfold fields
      rw [hbeside]
      simp
    obtain ⟨other, hother, hfound⟩ := exists_line_of_mem_fields (hread _ List.mem_cons_self)
      (fun _ hnone => absurd hnone List.not_mem_nil) hone
    rw [List.mem_singleton.mp hother] at hfound
    rw [← honly place.dash List.mem_cons_self hfound, hdash] at hnot
    cases hnot
  · have hcontent := hread other (List.mem_cons_of_mem _ hother)
    have hstands : value.toList <:+: other.content := by
      rw [hcontent]
      exact (infix_value (ownField_eq_some hown).2.2.2).trans (List.suffix_append _ _).isInfix
    rw [← honly other (List.mem_cons_of_mem _ hother) hstands]
    exact ⟨hother, hown⟩

/-- The line that is written for the tag stands at one place. -/
theorem IsProbe.once (h : IsProbe text repository version digest before line body after) :
    fedLine (keyLine line "newTag" version) ∉ before.map fedLine ++ [fedLine line] ∧
      fedLine (keyLine line "newTag" version) ∉
        fedLine (keyLine line "digest" digest) :: after.map fedLine := by
  have hholds : version.toList <:+: (fedLine (keyLine line "newTag" version)).content := by
    rw [content_fedLine h.fits_newTag.2, keyLine]
    exact (List.suffix_append _ _).isInfix
  have hplain : ∀ content ∈ before ++ line :: (body ++ after),
      fedLine content ≠ fedLine (keyLine line "newTag" version) := by
    intro content hcontent hsame
    rw [← h.lines] at hcontent
    exact not_infix_fedLine (h.versionFresh content hcontent) (hsame ▸ hholds)
  constructor
  · intro hmem
    rcases List.mem_append.mp hmem with hmem | hmem
    · obtain ⟨content, hcontent, hsame⟩ := List.mem_map.mp hmem
      exact hplain content (List.mem_append_left _ hcontent) hsame
    · exact hplain line (List.mem_append_right _ List.mem_cons_self)
        (List.mem_singleton.mp hmem).symm
  · intro hmem
    rcases List.mem_cons.mp hmem with hsame | hmem
    · exact not_infix_fedLine h.versionApart (hsame ▸ hholds)
    · obtain ⟨content, hcontent, hsame⟩ := List.mem_map.mp hmem
      exact hplain content (List.mem_append_right _ (List.mem_cons_of_mem _
        (List.mem_append_right _ hcontent))) hsame

/-- What opens an entry stands too far left to be a line under its dash. -/
theorem nothing_between {place : Place} (hentry : place.IsEntry) {keys : Nat}
    (hkeys : place.column = some keys) {opening : Line}
    (hsignificant : opening.isSignificant = true) (hleft : opening.indent < keys)
    {lines first : List Line} (hfirst : ∀ other ∈ first, other ∈ place.rest)
    (hfront : lines ++ [opening] = place.before ++ place.dash :: first) : first = [] := by
  rcases List.eq_nil_or_concat first with hnil | ⟨start, other, hconcat⟩
  · exact hnil
  · rw [List.concat_eq_append] at hconcat
    rw [hconcat, ← List.cons_append, ← List.append_assoc] at hfront
    obtain ⟨-, hother⟩ := List.append_inj' hfront rfl
    have hmem : opening ∈ place.rest := by
      refine hfirst _ ?_
      rw [hconcat, (List.cons.inj hother).1]
      exact List.mem_append_right _ List.mem_cons_self
    have hdeep := hentry.within _ hkeys _ hmem hsignificant
    exact absurd hleft (not_lt.mpr hdeep)

/-- The entry that gives the probe's values is the one that was rewritten. -/
theorem IsProbe.recover (h : IsProbe text repository version digest before line body after)
    {place : Place} (hlines : place.lines = writtenLines version digest before line after)
    (hentry : place.IsEntry) (htag : valuesOf "newTag" place.fields = [version.toList])
    (hdigest : valuesOf "digest" place.fields = [digest.toList]) :
    place.before = before.map fedLine ∧ place.dash = fedLine line ∧
    ∃ others, place.rest = (pinLines version digest line).map fedLine ++ others ∧
      others ++ place.after = after.map fedLine ∧
      ownField place.column (fedLine (keyLine line "newTag" version)) =
        some ("newTag".toList, version.toList) ∧
      ownField place.column (fedLine (keyLine line "digest" digest)) =
        some ("digest".toList, digest.toList) := by
  have hwritten : ∀ found ∈ place.dash :: place.rest,
      found ∈ writtenLines version digest before line after := by
    intro found hfound
    rw [← hlines]
    exact List.mem_append_right _ (List.mem_append_left place.after hfound)
  have hread : ∀ found ∈ place.dash :: place.rest, found.content = found.spaces ++ found.rest := by
    intro found hfound
    obtain ⟨content, -, rfl⟩ := List.mem_map.mp (hwritten found hfound)
    exact read_content _
  -- Each value is read off the line written for it, under the dash.
  obtain ⟨htagMem, htagOwn⟩ := found_under hread hentry.dash
    (opensEntry_keyLine isKey_newTag h.fits_newTag.2)
    (fun other hother => (h.eq_of_infix (hwritten other hother)).1) htag
  obtain ⟨hdigestMem, hdigestOwn⟩ := found_under hread hentry.dash
    (opensEntry_keyLine isKey_digest h.fits_digest.2)
    (fun other hother => (h.eq_of_infix (hwritten other hother)).2) hdigest
  obtain ⟨first, last, hrest⟩ := List.append_of_mem htagMem
  have hwhole : (place.before ++ place.dash :: first) ++
      fedLine (keyLine line "newTag" version) :: (last ++ place.after) =
        (before.map fedLine ++ [fedLine line]) ++ fedLine (keyLine line "newTag" version) ::
          (fedLine (keyLine line "digest" digest) :: after.map fedLine) := by
    have hboth := hlines
    rw [Place.lines, hrest] at hboth
    simpa [writtenLines, pinLines] using hboth
  obtain ⟨hfront, -, hback⟩ :=
    (List.append_cons_inj_of_notMem h.once.1 h.once.2).mp hwhole.symm
  obtain ⟨hspaces, hkeys⟩ :=
    indent_of_ownField isKey_newTag (by decide) h.fits_newTag.2 rfl htagOwn
  obtain ⟨hindent, hsignificant⟩ := fedLine_opening h.opens hspaces
  have hnil : first = [] := by
    refine nothing_between hentry hkeys hsignificant (by omega) (fun other hother => ?_) hfront
    rw [hrest]
    exact List.mem_append_left _ hother
  rw [hnil] at hfront hrest
  obtain ⟨hbefore, hdash⟩ := List.append_inj' hfront rfl
  have hdash : place.dash = fedLine line := (List.cons.inj hdash).1.symm
  rw [List.nil_append] at hrest
  -- The line written for the digest is the next one.
  have hnext : fedLine (keyLine line "digest" digest) ∈ last := by
    rw [hrest] at hdigestMem
    refine (List.mem_cons.mp hdigestMem).resolve_left fun hsame => h.once.2 ?_
    rw [← hsame]
    exact List.mem_cons_self
  cases last with
  | nil => cases hnext
  | cons other others =>
      obtain ⟨hother, hothers⟩ := List.cons.inj hback
      refine ⟨hbefore.symm, hdash, others, ?_, hothers.symm, htagOwn, hdigestOwn⟩
      rw [hrest, ← hother]
      rfl

/-- A text that is cut so is read back as the lines that are written. -/
theorem split_written {tag pinned : String}
    (hlines : Text.lines text = before ++ line :: (body ++ after))
    (htag : '\n' ∉ keyLine line "newTag" tag) (hpinned : '\n' ∉ keyLine line "digest" pinned) :
    Line.split (String.ofList (unlines (before ++ line :: (pinLines tag pinned line ++ after)))) =
      writtenLines tag pinned before line after := by
  refine split_unlines fun content hcontent => ?_
  have hold : ∀ {content : TextLine}, content ∈ before ++ line :: (body ++ after) →
      '\n' ∉ content := fun hmem => @newline_not_mem text _ (hlines ▸ hmem)
  rw [List.mem_append, List.mem_cons, List.mem_append] at hcontent
  rcases hcontent with hmem | rfl | hmem | hmem
  · exact hold (List.mem_append_left _ hmem)
  · exact hold (List.mem_append_right _ List.mem_cons_self)
  · rcases List.mem_cons.mp hmem with rfl | hmem
    · exact htag
    · rw [List.mem_singleton.mp hmem]
      exact hpinned
  · exact hold (List.mem_append_right _ (List.mem_cons_of_mem _ (List.mem_append_right _ hmem)))

theorem IsProbe.split_out (h : IsProbe text repository version digest before line body after)
    {out : String} (hok : repin text repository version digest = .ok out) :
    Line.split out = writtenLines version digest before line after := by
  obtain ⟨-, rfl⟩ := (repin_eq_ok h.lines h.noneBefore h.opens h.body h.stops).mp hok
  exact split_written h.lines h.fits_newTag.1 h.fits_digest.1

/-- Where an entry gives both pinned keys once, on two lines, no other line of it is a pin. -/
theorem not_isPin_of_values {keys : Option Nat} {besides others : List Field} {lines : List Line}
    {tag digest : TextLine}
    (htag : valuesOf "newTag" (besides ++ (others ++ lines.filterMap (ownField keys))) = [tag])
    (hdigest : valuesOf "digest" (besides ++ (others ++ lines.filterMap (ownField keys))) = [digest])
    (hothers : valuesOf "newTag" others = [tag] ∧ valuesOf "digest" others = [digest]) :
    ∀ line ∈ lines, isPin keys line = false := by
  have hnone : ∀ {key : String} {value : TextLine},
      valuesOf key (besides ++ (others ++ lines.filterMap (ownField keys))) = [value] →
        valuesOf key others = [value] → valuesOf key (lines.filterMap (ownField keys)) = [] := by
    intro key value hall hone
    rw [valuesOf_append, valuesOf_append, hone] at hall
    have hlength := congrArg List.length hall
    simp only [List.length_append, List.length_singleton] at hlength
    exact List.length_eq_zero_iff.mp (by omega)
  have htag := hnone htag hothers.1
  have hdigest := hnone hdigest hothers.2
  intro line hline
  rw [Bool.eq_false_iff]
  intro hpin
  obtain ⟨field, hfield, hpinned⟩ := (Option.any_eq_true _ _).mp hpin
  have hmem : field ∈ lines.filterMap (ownField keys) := List.mem_filterMap.mpr ⟨line, hline, hfield⟩
  have hvalue : ∀ {key : String}, (field.1 == key.toList) = true →
      field.2 ∈ valuesOf key (lines.filterMap (ownField keys)) := fun hkey =>
    List.mem_map_of_mem (List.mem_filter.mpr ⟨hmem, hkey⟩)
  unfold isPinned at hpinned
  rw [Bool.or_eq_true] at hpinned
  rcases hpinned with hkey | hkey
  · have hfound := hvalue hkey
    rw [htag] at hfound
    cases hfound
  · have hfound := hvalue hkey
    rw [hdigest] at hfound
    cases hfound

/-! ## The entry among the lines of the overlay -/

/-- The lines of an entry beside the lines of the text: those that are replaced, and the rest. -/
structure IsAligned (before : List TextLine) (line : TextLine) (body after : List TextLine)
    (place : Place) (own more : List Line) : Prop where
  split : own ++ more = place.rest
  before : place.before.map Line.content = before
  dash : place.dash.content = line
  own : own.map Line.content = body
  after : (more ++ place.after).map Line.content = after

theorem exists_isAligned {place : Place}
    (hlines : Text.lines text = before ++ line :: (body ++ after))
    (hplace : place.lines = Line.split text) (hbefore : place.before.length = before.length)
    (hrest : body.length ≤ place.rest.length) :
    ∃ own more, IsAligned before line body after place own more := by
  have hcontents : place.before.map Line.content ++
      (place.dash.content :: (place.rest ++ place.after).map Line.content) =
        before ++ line :: (body ++ after) := by
    rw [← hlines, lines_eq_map, ← hplace, Place.lines, @List.map_append _ _ _ place.before,
      List.map_cons]
  obtain ⟨hfront, hlater⟩ := List.append_inj hcontents (by rw [List.length_map, hbefore])
  obtain ⟨hline, hunder⟩ := List.cons.inj hlater
  have hsplit := List.take_append_drop body.length place.rest
  have hown : (place.rest.take body.length).length = body.length := by
    rw [List.length_take, min_eq_left hrest]
  rw [← hsplit, List.append_assoc, List.map_append] at hunder
  obtain ⟨hbody, hafter⟩ := List.append_inj hunder (by rw [List.length_map, hown])
  exact ⟨_, _, hsplit, hfront, hline, hbody, hafter⟩

/-- A value of an entry of a text has no line feed. -/
theorem newline_not_mem_of_field {place : Place} {field : Field}
    (hplace : place.lines = Line.split text) (h : field ∈ place.fields) : '\n' ∉ field.2 := by
  intro hnewline
  have hmem : ∀ found ∈ place.dash :: place.rest, found ∈ Line.split text := by
    intro found hfound
    rw [← hplace]
    exact List.mem_append_right _ (List.mem_append_left place.after hfound)
  have hcontent : ∀ found ∈ place.dash :: place.rest,
      found.content = found.spaces ++ found.rest := by
    intro found hfound
    obtain ⟨raw, -, rfl⟩ := List.mem_map.mp (hmem found hfound)
    exact read_content raw
  obtain ⟨found, hfound, hstands⟩ := exists_line_of_mem_fields (hcontent _ List.mem_cons_self)
    (fun found hfound => hcontent found (List.mem_cons_of_mem _ hfound)) h
  refine @newline_not_mem text found.content ?_ (hstands.subset hnewline)
  rw [lines_eq_map]
  exact List.mem_map_of_mem (hmem found hfound)

theorem isFed_of_map {lines : List Line} (h : lines = (lines.map Line.content).map fedLine) :
    ∀ line ∈ lines, IsFed line := by
  rw [List.map_map] at h
  conv at h => lhs; rw [← List.map_id lines]
  exact fun line hline => (List.map_inj_left.mp h line hline).symm

section Written

variable {keys : Nat} {dash : Line} {others : List Line}

/-- The keys of an entry whose first lines are those that rewriting writes. -/
theorem fields_written
    (hcolumn : column dash ((pinLines version digest line).map fedLine ++ others) = some keys)
    (htag : ownField (some keys) (fedLine (keyLine line "newTag" version)) =
      some ("newTag".toList, version.toList))
    (hdigest : ownField (some keys) (fedLine (keyLine line "digest" digest)) =
      some ("digest".toList, digest.toList)) :
    fields dash ((pinLines version digest line).map fedLine ++ others) =
      ((beside dash).bind fun first => fieldOf first.2).toList ++
        ([("newTag".toList, version.toList), ("digest".toList, digest.toList)] ++
          others.filterMap (ownField (some keys))) := by
  unfold fields
  rw [hcolumn, List.filterMap_append]
  show _ ++ (List.filterMap _ [_, _] ++ _) = _
  rw [List.filterMap_cons_some htag, List.filterMap_cons_some hdigest]
  rfl

/-- What is kept of such an entry, where none of its other lines is a pin. -/
theorem filter_written
    (htag : ownField (some keys) (fedLine (keyLine line "newTag" version)) =
      some ("newTag".toList, version.toList))
    (hdigest : ownField (some keys) (fedLine (keyLine line "digest" digest)) =
      some ("digest".toList, digest.toList))
    (hothers : ∀ line ∈ others, isPin (some keys) line = false) :
    ((pinLines version digest line).map fedLine ++ others).filter
      (fun line => !isPin (some keys) line) = others := by
  have hkeep : others.filter (fun line => !isPin (some keys) line) = others :=
    List.filter_eq_self.mpr fun line hline => by simp [hothers line hline]
  rw [List.filter_append, hkeep]
  show List.filter _ [_, _] ++ _ = _
  rw [List.filter_cons_of_neg (by simp [isPin_of_field htag (isPinned_newTag _)]),
    List.filter_cons_of_neg (by simp [isPin_of_field hdigest (isPinned_digest _)])]
  rfl

/-- Where no more is kept of an entry than its last lines, the others are its pins. -/
theorem pins_of_kept {own more : List Line}
    (hmore : ∀ line ∈ more, isPin (some keys) line = false) (hlength : more.length = others.length)
    (hkept : others = (own ++ more).filter fun line => !isPin (some keys) line) :
    (∀ line ∈ own, isPin (some keys) line = true) ∧ others = more := by
  have hkeep : more.filter (fun line => !isPin (some keys) line) = more :=
    List.filter_eq_self.mpr fun line hline => by simp [hmore line hline]
  rw [List.filter_append, hkeep] at hkept
  have hnone : own.filter (fun line => !isPin (some keys) line) = [] := by
    have hlengths := congrArg List.length hkept
    rw [List.length_append] at hlengths
    exact List.length_eq_zero_iff.mp (by omega)
  rw [hnone, List.nil_append] at hkept
  refine ⟨fun found hfound => ?_, hkept⟩
  have hpin := List.filter_eq_nil_iff.mp hnone found hfound
  simpa using hpin

end Written

/-- The entry that a probe shows: all but the lines that are replaced stands as it is written
back, and these are its pins. -/
structure IsShown (before : List TextLine) (line : TextLine) (body after : List TextLine)
    (place : Place) (own more : List Line) : Prop where
  aligned : IsAligned before line body after place own more
  before : place.before = before.map fedLine
  dash : place.dash = fedLine line
  after : more ++ place.after = after.map fedLine
  pins : ∀ line ∈ own, isPin place.column line = true
  others : ∀ line ∈ more, isPin place.column line = false

/-- A probe that moves one image and nothing else shows its entry. -/
theorem IsProbe.exists_isShown (h : IsProbe text repository version digest before line body after)
    {place : Place} {rest : List Line} (honly : place.IsOnly text repository)
    (hout : (place.withRest rest).lines = writtenLines version digest before line after)
    (hentry : (place.withRest rest).IsEntry) (hkept : (place.withRest rest).kept = place.kept)
    (htag : valuesOf "newTag" (place.withRest rest).fields = [version.toList])
    (hdigest : valuesOf "digest" (place.withRest rest).fields = [digest.toList]) :
    ∃ own more, IsShown before line body after place own more := by
  obtain ⟨hbefore, hdash, others, hrest, hothers, htagOwn, hdigestOwn⟩ :=
    h.recover hout hentry htag hdigest
  change place.before = _ at hbefore
  change place.dash = _ at hdash
  change rest = _ at hrest
  change others ++ place.after = _ at hothers
  have hcount : place.before.length = before.length := by rw [hbefore, List.length_map]
  have hlengths : place.rest.length = body.length + others.length := by
    have hwhole := congrArg List.length h.lines
    have hafter := congrArg List.length hothers
    rw [lines_eq_map, ← honly.lines, Place.lines] at hwhole
    simp only [List.length_map, List.length_append, List.length_cons] at hwhole hafter
    omega
  -- The overlay has the same entry among the same lines.
  obtain ⟨own, more, haligned⟩ := exists_isAligned h.lines honly.lines hcount (by omega)
  have hmoreLength : more.length = others.length := by
    have hown := congrArg List.length haligned.own
    have hsplit := congrArg List.length haligned.split
    rw [List.length_map] at hown
    rw [List.length_append] at hsplit
    omega
  have hwritten := hothers
  rw [← haligned.after, List.map_append, List.map_append] at hwritten
  obtain ⟨hmoreFed, hafterFed⟩ := List.append_inj hwritten
    (by rw [List.length_map, List.length_map, hmoreLength])
  have hfed : IsFed place.dash := by
    unfold IsFed
    rw [haligned.dash, hdash]
  have hmarker := (rest_of_opensEntryOf hfed honly.entry.dash (by rw [haligned.dash, h.opens])).1
  have hcolumn : ∀ rest : List Line, column place.dash rest = some (place.dash.indent + 2) :=
    column_of_marker hfed hmarker
  change ownField (column place.dash rest) _ = _ at htagOwn hdigestOwn
  rw [hcolumn] at htagOwn hdigestOwn
  -- No other line of the entry is a pin, so none of the kept ones was replaced.
  have hothersFree : ∀ line ∈ others, isPin (some (place.dash.indent + 2)) line = false := by
    have hfields := fields_written (hcolumn (_ ++ others)) htagOwn hdigestOwn
    rw [← hrest] at hfields
    change valuesOf "newTag" (fields place.dash rest) = _ at htag
    change valuesOf "digest" (fields place.dash rest) = _ at hdigest
    rw [hfields] at htag hdigest
    exact not_isPin_of_values htag hdigest ⟨valuesOf_newTag _ _, valuesOf_digest _ _⟩
  have hmoreFree : ∀ line ∈ more, isPin (some (place.dash.indent + 2)) line = false := by
    intro found hfound
    rw [Bool.eq_false_iff]
    intro hpin
    have hmem : found ∈ Line.split text := by
      rw [← honly.lines, Place.lines, ← haligned.split]
      simp [hfound]
    obtain ⟨raw, -, rfl⟩ := List.mem_map.mp hmem
    have hagain := isPin_fedLine hpin
    rw [hothersFree _ ?_] at hagain
    · cases hagain
    · rw [hmoreFed]
      exact List.mem_map_of_mem (List.mem_map_of_mem hfound)
  have hkept : others = (own ++ more).filter fun line =>
      !isPin (some (place.dash.indent + 2)) line := by
    rw [haligned.split, ← filter_written htagOwn hdigestOwn hothersFree, ← hrest]
    have hsame := hkept
    change rest.filter (fun line => !isPin (column place.dash rest) line) =
      place.rest.filter (fun line => !isPin (column place.dash place.rest) line) at hsame
    rwa [hcolumn, hcolumn] at hsame
  obtain ⟨hpins, hsame⟩ := pins_of_kept hmoreFree hmoreLength hkept
  refine ⟨own, more, haligned, hbefore, hdash, ?_, ?_, ?_⟩
  · rw [← hsame, hothers]
  · show ∀ line ∈ own, isPin (column place.dash place.rest) line = true
    rwa [hcolumn]
  · show ∀ line ∈ more, isPin (column place.dash place.rest) line = false
    rwa [hcolumn]

/-- The lines that stand as they are written back. -/
theorem IsShown.fed {place : Place} {own more : List Line}
    (h : IsShown before line body after place own more) :
    ∀ line ∈ place.before ++ place.dash :: (more ++ place.after), IsFed line := by
  intro found hfound
  rw [List.mem_append, List.mem_cons] at hfound
  rcases hfound with hmem | rfl | hmem
  · refine isFed_of_map ?_ found hmem
    rw [h.aligned.before]
    exact h.before
  · unfold IsFed
    rw [h.aligned.dash, h.dash]
  · refine isFed_of_map ?_ found hmem
    rw [h.aligned.after]
    exact h.after

/-- The lines that rewriting writes are read as they are written. -/
theorem IsShown.lines_out (h : IsProbe text repository version digest before line body after)
    {place : Place} {own more : List Line} (hshown : IsShown before line body after place own more)
    {out : String} (hok : repin text repository version digest = .ok out) :
    Text.lines out = before ++ line :: (pinLines version digest line ++ after) := by
  have hbefore : (before.map fedLine).map Line.content = before := by
    rw [← hshown.before]
    exact hshown.aligned.before
  have hline : (fedLine line).content = line := by
    rw [← hshown.dash]
    exact hshown.aligned.dash
  have hafter : (after.map fedLine).map Line.content = after := by
    rw [← hshown.after]
    exact hshown.aligned.after
  have hpins : ((pinLines version digest line).map fedLine).map Line.content =
      pinLines version digest line := by
    show [(fedLine _).content, (fedLine _).content] = [_, _]
    rw [content_fedLine h.fits_newTag.2, content_fedLine h.fits_digest.2]
  rw [lines_eq_map, h.split_out hok, writtenLines, List.map_append, List.map_cons,
    List.map_append, List.map_append, List.map_cons, List.map_append, hbefore, hline, hafter, hpins]

/-- Moved back, the two lines are what rewriting writes. -/
theorem IsShown.restores (h : IsProbe text repository version digest before line body after)
    {place : Place} {own more : List Line} (hshown : IsShown before line body after place own more)
    (hplace : place.lines = Line.split text) {out : String}
    (hok : repin text repository version digest = .ok out) {tag pinned : String}
    (hdeclared : place.fields = [("name".toList, repository.toList),
      ("newTag".toList, tag.toList), ("digest".toList, pinned.toList)])
    (hback : repin out repository tag pinned = .ok text) :
    own = (pinLines tag pinned place.dash.content).map fedLine := by
  obtain ⟨-, htext⟩ := (repin_eq_ok (IsShown.lines_out h hshown hok) h.noneBefore h.opens
    (pinLines_continue version digest line) h.stops).mp hback
  have hline := newline_not_mem_line h.lines
  have htag : '\n' ∉ keyLine line "newTag" tag := by
    refine newline_not_mem_keyLine hline (by decide)
      (@newline_not_mem_of_field _ _ ("newTag".toList, tag.toList) hplace ?_)
    rw [hdeclared]
    exact List.mem_cons_of_mem _ List.mem_cons_self
  have hpinned : '\n' ∉ keyLine line "digest" pinned := by
    refine newline_not_mem_keyLine hline (by decide)
      (@newline_not_mem_of_field _ _ ("digest".toList, pinned.toList) hplace ?_)
    rw [hdeclared]
    exact List.mem_cons_of_mem _ (List.mem_cons_of_mem _ List.mem_cons_self)
  have hsplit : Line.split text = writtenLines tag pinned before line after := by
    conv => lhs; rw [htext]
    exact split_written h.lines htag hpinned
  rw [← hplace, Place.lines, writtenLines, List.map_append, List.map_cons, List.map_append,
    ← hshown.aligned.split, hshown.before, hshown.dash, List.append_assoc, hshown.after] at hsplit
  rw [hshown.aligned.dash]
  exact List.append_cancel_right (List.cons.inj (List.append_cancel_left hsplit)).2

/-- Where the probe moves one image and nothing else, the image is pinned as it is written back. -/
theorem IsProbe.isPinned (h : IsProbe text repository version digest before line body after)
    {out : String} (hok : repin text repository version digest = .ok out)
    (hmoves : MovesOneImage text repository version digest out) :
    ∃ (place : Place) (own more : List Line), place.IsPinned text repository own more := by
  obtain ⟨place, rest, honly, hout, hentry, hkept, -, htag, hdigest, -, hback⟩ := hmoves
  rw [h.split_out hok] at hout
  obtain ⟨own, more, hshown⟩ := h.exists_isShown honly hout hentry hkept htag hdigest
  have hline := hshown.aligned.dash
  refine ⟨place, own, more, honly, hshown.aligned.split.symm, ?_, fun found hfound => ?_,
    fun found hfound => ⟨?_, hshown.pins found hfound⟩, fun found hfound => ?_, hshown.others,
    hshown.fed, fun tag pinned hdeclared =>
      IsShown.restores h hshown honly.lines hok hdeclared (hback tag pinned hdeclared)⟩
  · rw [hline, h.opens]
  · refine h.noneBefore _ ?_
    rw [← hshown.aligned.before]
    exact List.mem_map_of_mem hfound
  · rw [hline]
    refine h.body _ ?_
    rw [← hshown.aligned.own]
    exact List.mem_map_of_mem hfound
  · rw [hline]
    refine h.stops _ ?_
    rw [← hshown.aligned.after, List.head?_map, Option.mem_def.mp hfound]
    rfl

/-- A probe for any overlay that is rewritten. -/
theorem exists_isProbe {text repository version digest out : String}
    (hok : repin text repository version digest = .ok out) :
    ∃ tag pinned before line body after,
      IsProbe text repository tag pinned before line body after ∧
        ∃ moved, repin text repository tag pinned = .ok moved := by
  obtain ⟨before, line, body, after, hlines, hopens, hbefore, hbody, hstops⟩ := exists_of_repin hok
  obtain ⟨hafter, -⟩ := (repin_eq_ok hlines hbefore hopens hbody hstops).mp hok
  have hlong : ∀ content ∈ Text.lines text, content.length ≤ text.toList.length := by
    intro content hcontent
    rw [lines_eq_map] at hcontent
    obtain ⟨found, hfound, rfl⟩ := List.mem_map.mp hcontent
    obtain ⟨first, last, hsplit⟩ := List.append_of_mem hfound
    rw [text_eq, hsplit, List.flatMap_append, List.flatMap_cons]
    simp only [List.length_append]
    omega
  -- Longer than the overlay, so in no line of it, and one character over and over.
  let probe (c : Char) : String := String.ofList (List.replicate (text.toList.length + 1) c)
  have hprobe : ∀ c, (probe c).toList = List.replicate (text.toList.length + 1) c := fun c =>
    String.toList_ofList
  have hmem : ∀ c, ∀ d ∈ (probe c).toList, d = c := by
    intro c d hd
    rw [hprobe] at hd
    exact List.eq_of_mem_replicate hd
  have hfresh : ∀ c, ∀ content ∈ Text.lines text, ¬ (probe c).toList <:+: content := by
    intro c content hcontent hfound
    have hlength := List.IsInfix.length_le hfound
    have hshort := hlong content hcontent
    rw [hprobe, List.length_replicate] at hlength
    omega
  have hreads : ∀ {key : String} (c : Char), ':' ∉ key.toList → bare key.toList = key.toList →
      (c ≠ '#' ∧ c ≠ '"' ∧ c ≠ '\'' ∧ isWhitespace c = false) → c ≠ '\n' → c ≠ '\r' →
        ReadsBack key (probe c) := by
    intro key c hcolon hbare hplain hfeed hreturn
    refine ⟨⟨fun hnewline => hfeed (hmem c _ hnewline).symm, fun hlast => ?_⟩, ?_⟩
    · exact hreturn (hmem c _ (List.mem_of_getLast? hlast)).symm
    · refine @fieldOf_plain _ _ c hcolon hbare ?_ fun d hd => ?_
      · rw [hprobe]
        rfl
      · rw [hmem c d hd]
        exact hplain
  -- One probe is in no line that is written for the other.
  have hapart : ∀ {key : String} {c d : Char}, c ∉ key.toList → c ≠ d → c ≠ ':' →
      isWhitespace c = false → ¬ (probe c).toList <:+: keyLine line key (probe d) := by
    intro key c d hkey hne hcolon hblank hfound
    have hc : c ∈ keyLine line key (probe d) := by
      refine hfound.subset ?_
      rw [hprobe]
      exact List.mem_cons_self
    have hspace : c ≠ ' ' := by
      rintro rfl
      revert hblank
      decide
    rw [keyLine_eq, continuation] at hc
    simp only [List.mem_append, List.mem_cons, List.not_mem_nil, or_false] at hc
    rcases hc with (hindent | hc | hc) | (hname | hc | hc) | hvalue
    · rw [List.mem_takeWhile_imp hindent] at hblank
      cases hblank
    · exact hspace hc
    · exact hspace hc
    · exact hkey hname
    · exact hcolon hc
    · exact hspace hc
    · exact hne (hmem d c hvalue)
  refine ⟨probe '1', probe '2', before, line, body, after, ?_, ?_⟩
  · exact ⟨hlines, hopens, hbefore, hbody, hstops, hafter,
      hreads '1' (by decide) (by decide) (by decide) (by decide) (by decide),
      hreads '2' (by decide) (by decide) (by decide) (by decide) (by decide),
      hfresh '1', hfresh '2', hapart (by decide) (by decide) (by decide) (by decide),
      hapart (by decide) (by decide) (by decide) (by decide)⟩
  · exact ⟨_, (repin_eq_ok hlines hbefore hopens hbody hstops).mpr ⟨hafter, rfl⟩⟩

end Probe

/-- An overlay's image is moved, and nothing else, by every move to a tag and a digest that read
back as they are written, exactly where it is pinned the way it is written back. -/
theorem repin_moves_one_image (text repository : String) :
    (∀ version digest out, ReadsBack "newTag" version → ReadsBack "digest" digest →
      repin text repository version digest = .ok out →
        MovesOneImage text repository version digest out) ↔
    ((∃ version digest out, repin text repository version digest = .ok out) →
      ∃ (place : Place) (own more : List Line), place.IsPinned text repository own more) := by
  constructor
  · rintro hmoves ⟨version, digest, out, hok⟩
    obtain ⟨tag, pinned, before, line, body, after, hprobe, moved, hmoved⟩ := exists_isProbe hok
    exact hprobe.isPinned hmoved
      (hmoves tag pinned moved hprobe.versionReads hprobe.digestReads hmoved)
  · intro hpinned version digest out hversion hdigest hok
    obtain ⟨place, own, more, hplace⟩ := hpinned ⟨version, digest, out, hok⟩
    exact hplace.moves hversion hdigest hok

/-! ## An overlay of two images -/

/-- Two images, the first of them pinned the way it is written back. -/
def twoImages : String :=
  "images:\n- name: api\n  newTag: 1.2.0\n  digest: sha256:0a\n- name: web\n  newTag: 2.0.0\n"

/-- It, with the first image moved. -/
def apiMoved : String :=
  "images:\n- name: api\n  newTag: 1.3.0\n  digest: sha256:0b\n- name: web\n  newTag: 2.0.0\n"

/-- The lines of the first image's tag and digest. -/
def apiPins : List Line := ["  newTag: 1.2.0", "  digest: sha256:0a"].map (fedLine ·.toList)

/-- The entry of the first image. -/
def apiPlace : Place where
  head := []
  title := fedLine "images:".toList
  front := []
  dash := fedLine "- name: api".toList
  rest := apiPins
  back := ["- name: web", "  newTag: 2.0.0"].map (fedLine ·.toList)
  tail := []

theorem apiPlace_lines : apiPlace.lines = Line.split twoImages := by decide +kernel

theorem apiPlace_isEntry : apiPlace.IsEntry := by
  constructor <;> decide +kernel

theorem apiPlace_fields : apiPlace.fields = [("name".toList, "api".toList),
    ("newTag".toList, "1.2.0".toList), ("digest".toList, "sha256:0a".toList)] := by
  decide +kernel

theorem apiPlace_isOnly : apiPlace.IsOnly twoImages "api" := by
  refine ⟨apiPlace_lines, apiPlace_isEntry, ?_, fun other hlines hentry hnames => ?_⟩
  · unfold Place.Names
    rw [apiPlace_fields]
    exact List.mem_cons_self
  -- An entry opens at two lines, and from the second of them on no line holds the name.
  have hdash : (other.dash, other.before.length) ∈ (Line.split twoImages).zipIdx := by
    rw [List.mem_zipIdx_iff_getElem?, ← hlines, Place.lines]
    simp
  have hopen : ∀ found ∈ (Line.split twoImages).zipIdx, found.1.opensEntry = true →
      found.2 = 1 ∨ found.2 = 4 := by decide +kernel
  have hlater : ∀ line ∈ (Line.split twoImages).drop 4,
      line.content = line.spaces ++ line.rest ∧ ¬ "api".toList <:+: line.content := by
    decide +kernel
  rcases hopen _ hdash hentry.dash with hone | hfour
  · exact hone
  · have hunder : other.dash :: (other.rest ++ other.after) = (Line.split twoImages).drop 4 := by
      rw [← hfour, ← hlines]
      exact List.drop_left.symm
    have hmem : ∀ line ∈ other.dash :: other.rest, line ∈ (Line.split twoImages).drop 4 := by
      intro line hline
      rw [← hunder]
      exact List.mem_append_left other.after hline
    obtain ⟨line, hline, hfound⟩ := exists_line_of_mem_fields
      (hlater _ (hmem _ List.mem_cons_self)).1
      (fun line hline => (hlater _ (hmem _ (List.mem_cons_of_mem _ hline))).1) hnames
    exact absurd hfound (hlater line (hmem line hline)).2

theorem apiPlace_isPinned :
    apiPlace.IsPinned twoImages "api" apiPins [] := by
  have hfed : ∀ line ∈ apiPlace.before ++ apiPlace.dash :: ([] ++ apiPlace.after),
      fedLine line.content = line := by decide +kernel
  refine ⟨apiPlace_isOnly, by decide +kernel, by decide +kernel, by decide +kernel,
    by decide +kernel, by decide +kernel, by decide +kernel, hfed, ?_⟩
  intro tag pinned hdeclared
  rw [apiPlace_fields] at hdeclared
  simp only [List.cons.injEq, Prod.mk.injEq, true_and, and_true] at hdeclared
  rw [← String.toList_inj.mp hdeclared.1, ← String.toList_inj.mp hdeclared.2]
  decide +kernel

/-- The first image is moved, and the other one stands as it stood. -/
theorem twoImages_moves_one_image : apiPlace.IsPinned twoImages "api" apiPins [] ∧
    repin twoImages "api" "1.3.0" "sha256:0b" = .ok apiMoved ∧
    MovesOneImage twoImages "api" "1.3.0" "sha256:0b" apiMoved := by
  have hok : repin twoImages "api" "1.3.0" "sha256:0b" = .ok apiMoved := by decide +kernel
  refine ⟨apiPlace_isPinned, hok, (repin_moves_one_image twoImages "api").mpr
    (fun _ => ⟨_, _, _, apiPlace_isPinned⟩) _ _ _ ?_ ?_ hok⟩
  · exact ⟨⟨by decide, by decide⟩, by decide +kernel⟩
  · exact ⟨⟨by decide, by decide⟩, by decide +kernel⟩

end Images
end PlatformGit
end SaasFabric
