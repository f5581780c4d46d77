import SaasFabric.Platform.Redacted

/-!
# Sanitising twice

What is shown of a text is shown again as it is, but for a text cut right after a marked word and
for one that held a PEM block.
-/

namespace SaasFabric
namespace Platform
namespace Diagnostic

open Library (words wordBefore frontOf wordAfter backOf IsWord EndsAtBreak)

/-! ## Where a start of a word is cut -/

theorem prefix_of_apart {start front rest : List Char} {c : Char} (hc : c ∉ start)
    (h : start <+: front ++ c :: rest) : start <+: front := by
  rcases Nat.le_total start.length front.length with hlength | hlength
  · exact List.prefix_of_prefix_length_le h (List.prefix_append _ _) hlength
  · have hfront := List.prefix_of_prefix_length_le (List.prefix_append front (c :: rest)) h hlength
    obtain ⟨last, rfl⟩ := hfront
    rw [List.prefix_append_right_inj] at h
    cases last with
    | nil => rw [List.append_nil]
    | cons d last =>
        obtain ⟨rfl, -⟩ := List.cons_prefix_cons.mp h
        exact absurd (List.mem_append_right front List.mem_cons_self) hc

theorem infix_of_apart {start front rest : List Char} {c : Char} (hc : c ∉ start)
    (h : start <:+: front ++ c :: rest) : start <:+: front ∨ start <:+: rest := by
  induction front with
  | nil =>
      rcases List.infix_cons_iff.mp h with hstart | hrest
      · exact .inl (@prefix_of_apart start [] rest c hc hstart).isInfix
      · exact .inr hrest
  | cons d front ih =>
      rcases List.infix_cons_iff.mp h with hstart | hrest
      · exact .inl (@prefix_of_apart start (d :: front) rest c hc hstart).isInfix
      · exact (ih hrest).imp_left fun hfront => List.infix_cons hfront

theorem takeWhile_append_of_mem {separator : Char} {front : Word} (h : separator ∈ front)
    (rest : Word) :
    (front ++ rest).takeWhile (· != separator) = front.takeWhile (· != separator) := by
  induction front with
  | nil => cases h
  | cons c front ih =>
      rw [List.cons_append, List.takeWhile_cons, List.takeWhile_cons]
      by_cases hc : c = separator
      · simp [hc]
      · rw [ih ((List.mem_cons.mp h).resolve_left (Ne.symm hc))]

theorem length_takeWhile_lt {separator : Char} {word : Word} (h : separator ∈ word) :
    (word.takeWhile (· != separator)).length < word.length := by
  have hlength := congrArg List.length (take_takeWhile h)
  rw [List.length_take, List.length_append, List.length_singleton] at hlength
  omega

theorem mem_of_length_takeWhile {separator : Char} {front rest : Word}
    (h : ((front ++ rest).takeWhile (· != separator)).length < front.length) :
    separator ∈ front := by
  by_contra hnot
  have hfront : ∀ c ∈ front, (c != separator) = true := by
    intro c hc
    rw [bne_iff_ne]
    rintro rfl
    exact hnot hc
  rw [List.takeWhile_append_of_pos hfront, List.length_append] at h
  omega

/-- The characters of what names a credential. -/
def nameCharacters : List Char := "abcdehiknoprstuwz:=".toList

theorem exists_name {word : Word} (h : introducesACredential word = true) :
    ∃ name ∈ CREDENTIAL_NAMES, ∃ rest, word.map toLowercase = name ++ rest ∧
      ∀ c ∈ rest, c = ':' ∨ c = '=' := by
  obtain ⟨name, hname, heq⟩ := List.any_eq_true.mp h
  rw [beq_iff_eq] at heq
  refine ⟨name, hname, (word.map toLowercase).rtakeWhile fun c => c == ':' || c == '=', ?_, ?_⟩
  · rw [← heq]
    exact List.rdropWhile_append_rtakeWhile.symm
  · intro c hc
    simpa using List.mem_rtakeWhile_imp hc

theorem mem_nameCharacters {word : Word} (h : introducesACredential word = true) {c : Char}
    (hc : c ∈ word) : toLowercase c ∈ nameCharacters := by
  obtain ⟨name, hname, rest, hword, hrest⟩ := exists_name h
  have hmem : toLowercase c ∈ name ++ rest := hword ▸ List.mem_map_of_mem hc
  rcases List.mem_append.mp hmem with hmem | hmem
  · have hnames : ∀ name ∈ CREDENTIAL_NAMES, ∀ c ∈ name, c ∈ nameCharacters := by decide
    exact hnames name hname _ hmem
  · rcases hrest _ hmem with hsign | hsign
    · rw [hsign]
      decide
    · rw [hsign]
      decide

/-- No URL names a credential, nor does its start. -/
theorem not_introduces_of_head {word : Word} (h : word.head? = some 'h') :
    introducesACredential word = false := by
  rw [Bool.eq_false_iff]
  intro hintroduces
  obtain ⟨name, hname, rest, hword, -⟩ := exists_name hintroduces
  have hheads : ∀ name ∈ CREDENTIAL_NAMES, name ≠ [] ∧ name.head? ≠ some 'h' := by decide
  obtain ⟨hne, hhead⟩ := hheads name hname
  have hfirst := congrArg List.head? hword
  rw [List.head?_map, h, List.head?_append_of_ne_nil _ hne] at hfirst
  exact hhead hfirst.symm

theorem head_of_isQueried {word : Word} (h : isQueried word = true) : word.head? = some 'h' := by
  unfold isQueried at h
  rw [Bool.and_eq_true, Bool.or_eq_true, List.isPrefixOf_iff_prefix,
    List.isPrefixOf_iff_prefix] at h
  rcases h.2 with ⟨rest, rfl⟩ | ⟨rest, rfl⟩
  · rfl
  · rfl

theorem not_isAssigned_of_isQueried {word : Word} (h : isQueried word = true) :
    isAssigned word = false := by
  have hhead := head_of_isQueried h
  cases word with
  | nil => cases hhead
  | cons c rest =>
      have hc : c = 'h' := Option.some.inj hhead
      subst hc
      unfold isAssigned
      rw [List.takeWhile_cons_of_pos (by decide), not_introduces_of_head rfl, Bool.and_false]

theorem isQueried_append {front : Word} (h : isQueried front = true) (rest : Word) :
    isQueried (front ++ rest) = true := by
  unfold isQueried at h ⊢
  rw [Bool.and_eq_true, Bool.or_eq_true, List.isPrefixOf_iff_prefix, List.isPrefixOf_iff_prefix,
    List.contains_iff_mem] at h ⊢
  exact ⟨List.mem_append_left rest h.1,
    h.2.imp (fun hstart => hstart.trans (List.prefix_append _ _))
      (fun hstart => hstart.trans (List.prefix_append _ _))⟩

theorem mem_of_isQueried {word : Word} (h : isQueried word = true) : '?' ∈ word := by
  unfold isQueried at h
  rw [Bool.and_eq_true, List.contains_iff_mem] at h
  exact h.1

theorem mem_of_isAssigned {word : Word} (h : isAssigned word = true) : '=' ∈ word := by
  unfold isAssigned at h
  rw [Bool.and_eq_true, List.contains_iff_mem] at h
  exact h.1

theorem isQueried_of_mem {front rest : Word} (h : isQueried (front ++ rest) = true)
    (hmem : '?' ∈ front) : isQueried front = true := by
  obtain ⟨before, after, rfl⟩ := List.append_of_mem hmem
  unfold isQueried at h ⊢
  rw [Bool.and_eq_true, Bool.or_eq_true, List.isPrefixOf_iff_prefix, List.isPrefixOf_iff_prefix,
    List.contains_iff_mem] at h ⊢
  rw [List.append_assoc, List.cons_append] at h
  exact ⟨hmem, h.2.imp
    (fun hstart => (prefix_of_apart (by decide) hstart).trans (List.prefix_append _ _))
    (fun hstart => (prefix_of_apart (by decide) hstart).trans (List.prefix_append _ _))⟩

theorem isAssigned_append {front : Word} (hmem : '=' ∈ front) (rest : Word) :
    isAssigned (front ++ rest) = isAssigned front := by
  have hfront : front.contains '=' = true := List.contains_iff_mem.mpr hmem
  have hboth : (front ++ rest).contains '=' = true :=
    List.contains_iff_mem.mpr (List.mem_append_left rest hmem)
  unfold isAssigned
  rw [takeWhile_append_of_mem hmem, hfront, hboth]

theorem carriesAPrefix_append {front : Word} (h : carriesAPrefix front = true) (rest : Word) :
    carriesAPrefix (front ++ rest) = true := by
  unfold carriesAPrefix at h ⊢
  obtain ⟨start, hmem, hstart⟩ := List.any_eq_true.mp h
  refine List.any_eq_true.mpr ⟨start, hmem, ?_⟩
  rw [Text.containsSlice_iff] at hstart ⊢
  exact hstart.trans (List.prefix_append front rest).isInfix

/-- The cases of `redact_word`. -/
inductive MarkedAt (word : Word) (kept : Nat) : Prop
  | carried (h : carriesAPrefix word = true) (hkept : kept = 0)
  | queried (hnot : carriesAPrefix word = false) (h : isQueried word = true)
      (hkept : kept = (word.takeWhile (· != '?')).length + 1)
  | assigned (hnot : carriesAPrefix word = false) (hnone : isQueried word = false)
      (h : isAssigned word = true) (hkept : kept = (word.takeWhile (· != '=')).length + 1)

theorem markAt_eq_some {word : Word} {kept : Nat} :
    markAt false word = some kept ↔ MarkedAt word kept := by
  unfold markAt
  rw [Bool.false_or]
  constructor
  · intro h
    split at h
    · next hcarried => exact .carried hcarried (Option.some.inj h).symm
    · next hnot =>
        have hnot := Bool.eq_false_iff.mpr hnot
        split at h
        · next hqueried => exact .queried hnot hqueried (Option.some.inj h).symm
        · next hnone =>
            have hnone := Bool.eq_false_iff.mpr hnone
            split at h
            · next hassigned => exact .assigned hnot hnone hassigned (Option.some.inj h).symm
            · cases h
  · intro h
    cases h with
    | carried h hkept => rw [if_pos h, hkept]
    | queried hnot h hkept =>
        rw [if_neg (Bool.eq_false_iff.mp hnot), if_pos h, hkept]
    | assigned hnot hnone h hkept =>
        rw [if_neg (Bool.eq_false_iff.mp hnot), if_neg (Bool.eq_false_iff.mp hnone), if_pos h,
          hkept]

theorem markAt_le {word : Word} {kept : Nat} (h : markAt false word = some kept) :
    kept ≤ word.length := by
  cases markAt_eq_some.mp h with
  | carried _ hkept => omega
  | queried _ h hkept =>
      have hlength := length_takeWhile_lt (mem_of_isQueried h)
      omega
  | assigned _ _ h hkept =>
      have hlength := length_takeWhile_lt (mem_of_isAssigned h)
      omega

theorem markAt_append {front : Word} {kept : Nat} (h : markAt false front = some kept)
    {rest : Word} (hnot : carriesAPrefix (front ++ rest) = false) :
    markAt false (front ++ rest) = some kept := by
  rw [markAt_eq_some] at h ⊢
  cases h with
  | carried h =>
      rw [carriesAPrefix_append h] at hnot
      cases hnot
  | queried _ h hkept =>
      refine .queried hnot (isQueried_append h rest) ?_
      rw [takeWhile_append_of_mem (mem_of_isQueried h), hkept]
  | assigned _ _ h hkept =>
      have hmem := mem_of_isAssigned h
      have hassigned : isAssigned (front ++ rest) = true := by rw [isAssigned_append hmem, h]
      refine .assigned hnot ?_ hassigned (by rw [takeWhile_append_of_mem hmem, hkept])
      -- A URL does not name a credential.
      rw [Bool.eq_false_iff]
      intro hqueried
      rw [not_isAssigned_of_isQueried hqueried] at hassigned
      cases hassigned

theorem markAt_front {front rest : Word} {kept : Nat}
    (h : markAt false (front ++ rest) = some kept) (hpos : kept ≠ 0)
    (hkept : kept ≤ front.length) : markAt false front = some kept := by
  rw [markAt_eq_some] at h ⊢
  have hfront : carriesAPrefix (front ++ rest) = false → carriesAPrefix front = false := by
    intro hnot
    rw [Bool.eq_false_iff] at hnot ⊢
    exact fun hcarried => hnot (carriesAPrefix_append hcarried rest)
  cases h with
  | carried _ hzero => exact absurd hzero hpos
  | queried hnot h hlength =>
      have hmem : '?' ∈ front := @mem_of_length_takeWhile '?' front rest (by omega)
      refine .queried (hfront hnot) (isQueried_of_mem h hmem) ?_
      rw [hlength, takeWhile_append_of_mem hmem]
  | assigned hnot hnone h hlength =>
      have hmem : '=' ∈ front := @mem_of_length_takeWhile '=' front rest (by omega)
      refine .assigned (hfront hnot) ?_ ?_ ?_
      · rw [Bool.eq_false_iff] at hnone ⊢
        exact fun hqueried => hnone (isQueried_append hqueried rest)
      · rw [← isAssigned_append hmem rest, h]
      · rw [hlength, takeWhile_append_of_mem hmem]

/-! ## What follows a mark -/

/-- A character and what follows it, neither marking a word nor completing what marks one. -/
structure Inert (c : Char) (rest : Word) : Prop where
  starts : ∀ start ∈ CREDENTIAL_PREFIXES, c ∉ start ∧ ¬ start <:+: rest
  signs : '?' ∉ c :: rest ∧ '=' ∉ c :: rest

theorem inert_marker : Inert '[' "redacted]".toList := ⟨by decide, by decide⟩

theorem inert_ellipsis : Inert '…' [] := ⟨by decide, by decide⟩

theorem inert_cut_marker (m : Nat) : Inert '[' ("redacted]".toList.take m ++ ['…']) := by
  refine ⟨fun start hstart => ?_, ?_⟩
  · obtain ⟨hfirst, hrest⟩ := inert_marker.starts start hstart
    obtain ⟨hellipsis, hnil⟩ := inert_ellipsis.starts start hstart
    refine ⟨hfirst, fun hfound => ?_⟩
    rcases infix_of_apart hellipsis hfound with htaken | hempty
    · exact hrest (htaken.trans (List.take_prefix m _).isInfix)
    · exact hnil hempty
  · have hsigns := inert_marker.signs
    constructor
    · intro hmem
      rcases List.mem_cons.mp hmem with hmem | hmem
      · exact absurd hmem (by decide)
      · rcases List.mem_append.mp hmem with hmem | hmem
        · exact hsigns.1 (List.mem_cons_of_mem _ (List.mem_of_mem_take hmem))
        · exact absurd hmem (by decide)
    · intro hmem
      rcases List.mem_cons.mp hmem with hmem | hmem
      · exact absurd hmem (by decide)
      · rcases List.mem_append.mp hmem with hmem | hmem
        · exact hsigns.2 (List.mem_cons_of_mem _ (List.mem_of_mem_take hmem))
        · exact absurd hmem (by decide)

theorem Inert.carriesAPrefix_eq {c : Char} {rest : Word} (h : Inert c rest) (front : Word) :
    carriesAPrefix (front ++ c :: rest) = carriesAPrefix front := by
  rw [Bool.eq_iff_iff]
  refine ⟨fun hcarried => ?_, fun hcarried => carriesAPrefix_append hcarried _⟩
  unfold carriesAPrefix at hcarried ⊢
  obtain ⟨start, hmem, hstart⟩ := List.any_eq_true.mp hcarried
  refine List.any_eq_true.mpr ⟨start, hmem, ?_⟩
  rw [Text.containsSlice_iff] at hstart ⊢
  obtain ⟨hc, hrest⟩ := h.starts start hmem
  exact (infix_of_apart hc hstart).resolve_right hrest

/-- A word is marked where its start is. -/
theorem Inert.markAt_eq {c : Char} {rest : Word} (h : Inert c rest) (front : Word) :
    markAt false (front ++ c :: rest) = markAt false front := by
  have hcarried := h.carriesAPrefix_eq front
  refine Option.ext fun kept => ?_
  constructor
  · intro hmark
    cases markAt_eq_some.mp hmark with
    | carried hwhole hkept =>
        rw [hcarried] at hwhole
        exact markAt_eq_some.mpr (.carried hwhole hkept)
    | queried hnot hqueried hkept =>
        have hmem : '?' ∈ front :=
          (List.mem_append.mp (mem_of_isQueried hqueried)).resolve_right h.signs.1
        have hlength := length_takeWhile_lt hmem
        rw [takeWhile_append_of_mem hmem] at hkept
        exact markAt_front hmark (by omega) (by omega)
    | assigned hnot hnone hassigned hkept =>
        have hmem : '=' ∈ front :=
          (List.mem_append.mp (mem_of_isAssigned hassigned)).resolve_right h.signs.2
        have hlength := length_takeWhile_lt hmem
        rw [takeWhile_append_of_mem hmem] at hkept
        exact markAt_front hmark (by omega) (by omega)
  · intro hmark
    cases hfront : carriesAPrefix front with
    | true =>
        rw [hfront] at hcarried
        cases markAt_eq_some.mp hmark with
        | carried _ hkept => exact markAt_eq_some.mpr (.carried hcarried hkept)
        | queried hnot => exact absurd (hfront.symm.trans hnot) (by decide)
        | assigned hnot => exact absurd (hfront.symm.trans hnot) (by decide)
    | false =>
        rw [hfront] at hcarried
        exact markAt_append hmark hcarried

theorem markAt_true (word : Word) : markAt true word = some 0 := rfl

theorem named_eq_false {named : Bool} {word : Word} {kept : Nat}
    (h : markAt named word = some kept) (hpos : kept ≠ 0) : named = false := by
  cases named with
  | true =>
      rw [markAt_true, Option.some.injEq] at h
      exact absurd h.symm hpos
  | false => rfl

theorem markAt_take {word : Word} {kept : Nat} (h : markAt false word = some kept)
    (hpos : kept ≠ 0) : markAt false (word.take kept) = some kept := by
  have hle := markAt_le h
  rw [← List.take_append_drop kept word] at h
  exact markAt_front h hpos (by rw [List.length_take]; omega)

/-- A word that is not taken out whole is shown again as it was shown. -/
theorem shown_shown {named : Bool} {word : Word} :
    shown false (shown named word) = shown named word := by
  cases hmark : markAt named word with
  | none =>
      rw [shown_of_none hmark]
      cases named with
      | true => cases hmark
      | false => exact shown_of_none hmark
  | some kept =>
      rw [shown_of_some hmark]
      by_cases hpos : kept = 0
      · rw [hpos, List.take_zero, List.nil_append]
        decide
      · obtain rfl := named_eq_false hmark hpos
        have hagain : markAt false (word.take kept ++ marker) = some kept := by
          rw [← markAt_take hmark hpos]
          exact inert_marker.markAt_eq (word.take kept)
        have hlength : (word.take kept).length = kept := by
          have hle := markAt_le hmark
          rw [List.length_take]
          omega
        rw [shown_of_some hagain, List.take_left' hlength]

/-- A marked word that is cut after its mark gets its marker back. -/
theorem shown_cut_of_le {word : Word} {kept m : Nat} (h : markAt false word = some kept)
    (hpos : kept ≠ 0) (hm : kept ≤ m) :
    shown false ((shown false word).take m ++ ['…']) = shown false word := by
  have hlength : (word.take kept).length = kept := by
    have hle := markAt_le h
    rw [List.length_take]
    omega
  have hcut : (word.take kept ++ marker).take m = word.take kept ++ marker.take (m - kept) := by
    rw [List.take_append, hlength, List.take_of_length_le (by omega)]
  rw [shown_of_some h, hcut, List.append_assoc]
  have hagain : markAt false (word.take kept ++ (marker.take (m - kept) ++ ['…'])) = some kept := by
    rw [← markAt_take h hpos]
    cases m - kept with
    | zero => exact inert_ellipsis.markAt_eq (word.take kept)
    | succ j => exact (inert_cut_marker j).markAt_eq (word.take kept)
  rw [shown_of_some hagain, List.take_left' hlength]

/-- Any other word is shown as it is where it is cut. -/
theorem shown_cut_of_not {named : Bool} {word : Word} {m : Nat}
    (h : ∀ kept, markAt named word = some kept → kept ≠ 0 → m < kept) :
    shown false ((shown named word).take m ++ ['…']) = (shown named word).take m ++ ['…'] := by
  refine shown_of_none ?_
  have hmarker : markAt false (marker.take m ++ ['…']) = none := by
    cases m with
    | zero => exact inert_ellipsis.markAt_eq []
    | succ j => exact (inert_cut_marker j).markAt_eq []
  cases hmark : markAt named word with
  | none =>
      have hunmarked : markAt false word = none := by
        cases named with
        | true => cases hmark
        | false => exact hmark
      rw [shown_of_none hmark, inert_ellipsis.markAt_eq]
      cases hfront : markAt false (word.take m) with
      | none => rfl
      | some kept =>
          have hnot : carriesAPrefix word = false := by
            rw [Bool.eq_false_iff]
            intro hcarried
            rw [markAt_eq_some.mpr (.carried hcarried rfl)] at hunmarked
            cases hunmarked
          have hword := List.take_append_drop m word
          rw [← hword] at hnot
          have hsome := markAt_append hfront hnot
          rw [hword, hunmarked] at hsome
          cases hsome
  | some kept =>
      by_cases hpos : kept = 0
      · rw [shown_of_some hmark, hpos, List.take_zero, List.nil_append]
        exact hmarker
      · have hlt := h kept hmark hpos
        obtain rfl := named_eq_false hmark hpos
        have hle := markAt_le hmark
        have hcut : (word.take kept ++ marker).take m = word.take m := by
          rw [List.take_append_of_le_length (by rw [List.length_take]; omega), List.take_take,
            Nat.min_eq_left (by omega)]
        rw [shown_of_some hmark, hcut, inert_ellipsis.markAt_eq]
        cases hfront : markAt false (word.take m) with
        | none => rfl
        | some other =>
            have hother := markAt_le hfront
            rw [List.length_take] at hother
            have hnot : carriesAPrefix word = false := by
              cases markAt_eq_some.mp hmark with
              | carried _ hzero => exact absurd hzero hpos
              | queried hnot => exact hnot
              | assigned hnot => exact hnot
            have hword := List.take_append_drop m word
            rw [← hword] at hnot
            have hsame := markAt_append hfront hnot
            rw [hword, hmark, Option.some.injEq] at hsame
            omega

/-! ## The words shown, again -/

theorem introduces_shown (named : Bool) (word : Word) :
    introducesACredential (shown named word) =
      (introducesACredential word && (markAt named word).isNone) := by
  cases hmark : markAt named word with
  | none => rw [shown_of_none hmark, Option.isNone_none, Bool.and_true]
  | some kept =>
      rw [shown_of_some hmark, Option.isNone_some, Bool.and_false, Bool.eq_false_iff]
      intro hintroduces
      have hmem : ']' ∈ word.take kept ++ marker :=
        List.mem_append_right _ (by decide)
      exact absurd (mem_nameCharacters hintroduces hmem) (by decide)

theorem redactWords_redactWords {again named : Bool} (h : again = true → named = true)
    (listed : List Word) :
    redactWords again (redactWords named listed) = redactWords named listed := by
  induction listed generalizing again named with
  | nil => rfl
  | cons word listed ih =>
      rw [redactWords_cons, redactWords_cons, ih fun hagain => ?_]
      · cases again with
        | true =>
            rw [h rfl]
            rfl
        | false => rw [shown_shown]
      · rw [introduces_shown, Bool.and_eq_true] at hagain
        exact hagain.1

/-- The words shown are shown as they are. -/
theorem redactWords_again (listed : List Word) :
    redactWords false (redactWords false listed) = redactWords false listed :=
  redactWords_redactWords (fun h => absurd h Bool.false_ne_true) listed

theorem namedAfter_concat (named : Bool) (first : List Word) (word : Word) :
    namedAfter named (first ++ [word]) = introducesACredential word := by
  induction first generalizing named with
  | nil => rfl
  | cons other first ih => exact ih (introducesACredential other)

/-- The last word names a credential, and is shown itself. -/
def Introduced (listed : List Word) : Prop :=
  ∃ earlier name, listed = earlier ++ [name] ∧ introducesACredential name = true ∧
    markAt (namedAfter false earlier) name = none

theorem namedAfter_redactWords (listed : List Word) :
    namedAfter false (redactWords false listed) = true ↔ Introduced listed := by
  rcases List.eq_nil_or_concat listed with rfl | ⟨earlier, name, rfl⟩
  · refine ⟨nofun, ?_⟩
    rintro ⟨earlier, name, hnil, -⟩
    simp at hnil
  · rw [List.concat_eq_append, redactWords_append, redactWords_cons]
    show namedAfter false (_ ++ [_]) = true ↔ _
    rw [namedAfter_concat, introduces_shown, Bool.and_eq_true, Option.isNone_iff_eq_none]
    constructor
    · rintro ⟨hname, hmark⟩
      exact ⟨earlier, name, rfl, hname, hmark⟩
    · rintro ⟨other, same, heq, hname, hmark⟩
      obtain ⟨rfl, hsingle⟩ := List.append_inj' heq rfl
      cases hsingle
      exact ⟨hname, hmark⟩

theorem Introduced.named {listed : List Word} (h : Introduced listed) :
    namedAfter false listed = true := by
  obtain ⟨earlier, name, rfl, hname, -⟩ := h
  rw [namedAfter_concat, hname]

theorem isWord_shown {named : Bool} {word : Word} (h : IsWord isWhitespace word) :
    IsWord isWhitespace (shown named word) := by
  cases hmark : markAt named word with
  | none =>
      rw [shown_of_none hmark]
      exact h
  | some kept =>
      rw [shown_of_some hmark]
      refine ⟨List.append_ne_nil_of_right_ne_nil _ (by decide), fun c hc => ?_⟩
      rcases List.mem_append.mp hc with hc | hc
      · exact h.unbroken c (List.mem_of_mem_take hc)
      · have hmarker : ∀ c ∈ marker, isWhitespace c = false := by decide
        exact hmarker c hc

theorem isWord_redactWords {listed : List Word} (h : ∀ word ∈ listed, IsWord isWhitespace word)
    (named : Bool) : ∀ word ∈ redactWords named listed, IsWord isWhitespace word := by
  induction listed generalizing named with
  | nil => nofun
  | cons word listed ih =>
      rw [redactWords_cons]
      intro other hother
      rcases List.mem_cons.mp hother with rfl | hother
      · exact isWord_shown (h word List.mem_cons_self)
      · exact ih (fun next hnext => h next (List.mem_cons_of_mem word hnext)) _ other hother

end Diagnostic
end Platform
end SaasFabric
