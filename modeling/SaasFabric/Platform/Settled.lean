import SaasFabric.Platform.Resanitised

/-!
# What sanitising keeps and what it takes out

The value a redaction aims at, whether it is reached, and the texts that sanitising twice leaves as
sanitising once does.
-/

namespace SaasFabric
namespace Platform
namespace Diagnostic

open Library (words wordBefore frontOf wordAfter backOf IsWord EndsAtBreak StartsAtBreak)

/-! ## A text at its cut -/

theorem length_cap (text : List Char) : (cap text).length ≤ MAX + 1 := by
  unfold cap
  split
  · omega
  · rw [List.length_append, List.length_take, List.length_singleton]
    omega

/-- A text is cut to a given one where it starts with it and is longer. -/
theorem cap_eq_cut {text cut : List Char} (h : cut.length = MAX) :
    cap text = cut ++ ['…'] ↔ cut <+: text ∧ cut.length < text.length := by
  unfold cap
  split
  · next hshort =>
      constructor
      · intro heq
        have hlength := congrArg List.length heq
        rw [List.length_append, List.length_singleton] at hlength
        omega
      · rintro ⟨-, hlong⟩
        omega
  · next hlong =>
      constructor
      · intro heq
        obtain ⟨htake, -⟩ := List.append_inj' heq rfl
        exact ⟨htake ▸ List.take_prefix MAX text, by omega⟩
      · rintro ⟨hstart, -⟩
        rw [List.prefix_iff_eq_take.mp hstart, h]

/-- Where an unbroken word stands first in two texts, and a break after it, both say the same. -/
theorem cons_break_inj {first second rest other : List Char} {c d : Char}
    (hfirst : ∀ e ∈ first, isWhitespace e = false) (hsecond : ∀ e ∈ second, isWhitespace e = false)
    (hc : isWhitespace c = true) (hd : isWhitespace d = true)
    (h : first ++ c :: rest = second ++ d :: other) : first = second ∧ c :: rest = d :: other := by
  have hnone : ∀ {gap : List Char} {e : Char} {tail whole : List Char},
      (∀ f ∈ gap, isWhitespace f = false) → isWhitespace e = true → e :: tail = gap ++ whole →
        gap = [] := by
    intro gap e tail whole hgap he heq
    cases gap with
    | nil => rfl
    | cons f gap =>
        rw [List.cons_append, List.cons.injEq] at heq
        have hf := hgap f List.mem_cons_self
        rw [← heq.1, he] at hf
        cases hf
  rcases List.append_eq_append_iff.mp h with ⟨gap, hlonger, hgap⟩ | ⟨gap, hlonger, hgap⟩
  · have hnil := hnone (fun f hf => hsecond f (by rw [hlonger]; simp [hf])) hc hgap
    rw [hnil] at hlonger hgap
    exact ⟨by rw [hlonger, List.append_nil], hgap⟩
  · have hnil := hnone (fun f hf => hfirst f (by rw [hlonger]; simp [hf])) hd hgap
    rw [hnil] at hlonger hgap
    exact ⟨by rw [hlonger, List.append_nil], hgap.symm⟩

/-- Words with a space after each are the front of a text only where they are its words. -/
theorem front_of_spaced {listed : List Word} {word front last : List Char}
    (hlisted : ∀ other ∈ listed, IsWord isWhitespace other) (hword : IsWord isWhitespace word)
    (hfront : EndsAtBreak isWhitespace front)
    (hlength : listed.length = (words isWhitespace front).length)
    (h : spaced listed ++ word = front ++ last) :
    words isWhitespace front = listed ∧ spaced listed = front := by
  -- A break cannot stand where a word does.
  have hgapless : ∀ {gap other rest tail : List Char}, IsWord isWhitespace other →
      (∀ c ∈ gap, isWhitespace c = true) → other ++ rest = gap ++ tail → gap = [] := by
    intro gap other rest tail hother hgap heq
    cases gap with
    | nil => rfl
    | cons c gap =>
        obtain ⟨d, others, rfl⟩ := List.exists_cons_of_ne_nil hother.nonempty
        rw [List.cons_append, List.cons_append, List.cons.injEq] at heq
        have hd := hother.unbroken d List.mem_cons_self
        rw [heq.1, hgap c List.mem_cons_self] at hd
        cases hd
  -- Word by word: both texts have as many, so the last words are where the fronts end.
  induction listed generalizing front with
  | nil =>
      rw [List.length_nil, Eq.comm, List.length_eq_zero_iff] at hlength
      refine ⟨hlength, ?_⟩
      have hbreaks : ∀ c ∈ front, isWhitespace c = true := by
        intro c hc
        by_contra hnot
        rw [Bool.not_eq_true] at hnot
        obtain ⟨before, after, rfl⟩ := List.append_of_mem hc
        have hone : IsWord isWhitespace [c] := ⟨List.cons_ne_nil _ _, by simpa using hnot⟩
        have hwords := Library.words_around_piece hone before after
        rw [List.singleton_append, hlength] at hwords
        simp at hwords
      have hnil := @hgapless _ _ [] _ hword hbreaks (by simpa [spaced] using h)
      rw [hnil]
      rfl
  | cons other listed ih =>
      cases hwords : words isWhitespace front with
      | nil =>
          rw [hwords] at hlength
          cases hlength
      | cons first rest =>
          obtain ⟨gap, after, rfl, hgap, hfirst, hafter, hrest⟩ := Library.exists_first hwords
          have hother := hlisted other List.mem_cons_self
          have hspaced : spaced (other :: listed) ++ word =
              other ++ ' ' :: (spaced listed ++ word) := by simp [spaced]
          rw [hspaced, List.append_assoc] at h
          obtain rfl := hgapless hother hgap h
          rw [List.nil_append] at h hfront ⊢
          -- After the first word comes a break, for the front ends with one.
          cases after with
          | nil =>
              obtain ⟨start, c, rfl⟩ : ∃ start c, first = start ++ [c] := by
                rcases List.eq_nil_or_concat first with rfl | ⟨start, c, rfl⟩
                · exact absurd rfl hfirst.nonempty
                · exact ⟨start, c, List.concat_eq_append⟩
              have hbreak := hfront c (by simp)
              rw [hfirst.unbroken c (by simp)] at hbreak
              cases hbreak
          | cons c after =>
              have hc : isWhitespace c = true := hafter c rfl
              rw [List.append_assoc, List.cons_append] at h
              obtain ⟨rfl, htail⟩ := cons_break_inj hother.unbroken hfirst.unbroken (by decide) hc h
              rw [List.cons.injEq] at htail
              rw [Library.words_cons_break hc] at hrest
              have hends : EndsAtBreak isWhitespace after := by
                intro d hd
                refine hfront d ?_
                rw [Option.mem_def] at hd ⊢
                rw [List.getLast?_append, List.getLast?_cons, hd]
                rfl
              have hcount : listed.length = (words isWhitespace after).length := by
                rw [hwords, List.length_cons, List.length_cons] at hlength
                rw [hrest]
                omega
              obtain ⟨hsame, hafter⟩ := ih (fun next hnext =>
                hlisted next (List.mem_cons_of_mem _ hnext)) hends hcount htail.2
              rw [← hrest, hsame, ← hafter, ← htail.1]
              exact ⟨rfl, by simp [spaced]⟩

/-- Up to a cut, single spaces and words that are shown as they are; and at the cut, a word that
is shown as far as it is cut, and further. -/
def SettledCut (cut : List Char) : Prop :=
  let listed := words isWhitespace (frontOf isWhitespace cut)
  let last := wordBefore isWhitespace cut
  let again := shown (namedAfter false listed) (last ++ ['…'])
  redactWords false listed = listed ∧ spaced listed = frontOf isWhitespace cut ∧
    last <+: again ∧ last.length < again.length

theorem words_cut (cut : List Char) : words isWhitespace (cut ++ ['…']) =
    words isWhitespace (frontOf isWhitespace cut) ++ [wordBefore isWhitespace cut ++ ['…']] := by
  have hone : IsWord isWhitespace ['…'] := ⟨List.cons_ne_nil _ _, by decide⟩
  have hwords := Library.words_around_piece hone cut []
  rw [List.append_nil] at hwords
  rw [hwords]
  simp [wordAfter, backOf]

theorem isWord_words (text : List Char) :
    ∀ word ∈ words isWhitespace text, IsWord isWhitespace word :=
  fun _ hmem => Library.isWord_of_mem hmem

theorem begin_ne_nil : BEGIN ≠ [] := List.cons_ne_nil _ _

/-- No marker opens a PEM block. -/
theorem begin_of_marked {kept : List Char} (h : BEGIN <:+: kept ++ marker) : BEGIN <:+: kept := by
  have hapart : '[' ∉ BEGIN := by decide
  exact (infix_of_apart hapart h).resolve_right (by decide)

theorem begin_of_shown {named : Bool} {word : Word} (h : BEGIN <:+: shown named word) :
    BEGIN <:+: word := by
  cases hmark : markAt named word with
  | none => rwa [shown_of_none hmark] at h
  | some kept =>
      rw [shown_of_some hmark] at h
      exact (begin_of_marked h).trans (List.take_prefix kept word).isInfix

theorem length_redactWords (named : Bool) (listed : List Word) :
    (redactWords named listed).length = listed.length := by
  induction listed generalizing named with
  | nil => rfl
  | cons word listed ih => rw [redactWords_cons, List.length_cons, List.length_cons, ih]

/-- A cut text is shown as it is where it is settled. -/
theorem settled_cut {cut : List Char} (hlength : cut.length = MAX) (hnone : ¬ BEGIN <:+: cut) :
    sanitised (cut ++ ['…']) = cut ++ ['…'] ↔ SettledCut cut := by
  have hslice : beforeSlice BEGIN (cut ++ ['…']) = none := by
    rw [beforeSlice_eq_none begin_ne_nil]
    intro hfound
    rcases infix_of_apart (by decide) hfound with hcut | hnil
    · exact hnone hcut
    · exact begin_ne_nil (List.infix_nil.mp hnil)
  have hsplit := @Library.frontOf_append_wordBefore _ isWhitespace cut
  unfold sanitised SettledCut
  rw [redact_of_none hslice, words_cut, redactWords_append, redactWords_cons, intercalate_eq,
    cap_eq_cut hlength]
  dsimp only
  have hends := @Library.endsAtBreak_frontOf _ isWhitespace cut
  have hwords := isWord_words (cut ++ ['…'])
  rw [words_cut] at hwords
  have hlisted := isWord_words (frontOf isWhitespace cut)
  generalize hagain : shown (namedAfter false (words isWhitespace (frontOf isWhitespace cut)))
    (wordBefore isWhitespace cut ++ ['…']) = again
  have hword : IsWord isWhitespace again :=
    hagain ▸ isWord_shown (hwords _ (List.mem_append_right _ List.mem_cons_self))
  show _ <+: spaced _ ++ (again ++ []) ∧ _ < (spaced _ ++ (again ++ [])).length ↔ _
  rw [List.append_nil]
  -- Both texts start with the words before the cut, one space after each.
  constructor
  · rintro ⟨⟨more, hmore⟩, hlonger⟩
    conv at hmore => lhs; rw [← hsplit]
    rw [List.append_assoc] at hmore
    obtain ⟨hsame, hspaced⟩ := front_of_spaced (isWord_redactWords hlisted false) hword hends
      (length_redactWords false _) hmore.symm
    rw [hspaced, List.append_cancel_left_eq] at hmore
    have hboth := congrArg List.length hsplit
    rw [List.length_append] at hboth
    rw [List.length_append, hspaced] at hlonger
    exact ⟨hsame.symm, hsame ▸ hspaced, ⟨more, hmore⟩, by omega⟩
  · rintro ⟨hsame, hspaced, ⟨more, hmore⟩, hlonger⟩
    have hboth := congrArg List.length hsplit
    rw [List.length_append] at hboth
    rw [hsame, hspaced]
    refine ⟨⟨more, ?_⟩, by rw [List.length_append]; omega⟩
    conv => lhs; rw [← hsplit]
    rw [List.append_assoc, hmore]

/-! ## A message without a PEM block -/

theorem words_spaced {listed : List Word} (h : ∀ word ∈ listed, IsWord isWhitespace word) :
    words isWhitespace (spaced listed) = listed := by
  by_cases hne : listed = []
  · rw [hne]
    exact Library.words_nil
  · rw [spaced_eq hne, Library.words_concat_break (by decide),
      Library.words_intercalate (by decide) h]

theorem endsAtBreak_spaced (listed : List Word) : EndsAtBreak isWhitespace (spaced listed) := by
  intro c hc
  by_cases hne : listed = []
  · rw [hne] at hc
    cases hc
  · rw [spaced_eq hne, List.getLast?_concat, Option.mem_some] at hc
    rw [← hc]
    decide

/-- A word's mark, and the marker after it, or the marker for the word a name introduces. -/
def Remade (first : List Word) (word : Word) : Prop :=
  Introduced first ∨ ∃ kept, markAt (namedAfter false first) word = some kept ∧ kept ≠ 0

/-- A cut is settled but where it comes right after a marker that is made again. -/
theorem settledCut_iff {first : List Word} (hfirst : ∀ other ∈ first, IsWord isWhitespace other)
    {word : Word} (hword : IsWord isWhitespace word) {k : Nat}
    (hk : k ≤ (shown (namedAfter false first) word).length) :
    SettledCut (spaced (redactWords false first) ++
        (shown (namedAfter false first) word).take k) ↔
      ¬ (k = (shown (namedAfter false first) word).length ∧ Remade first word) := by
  have hlisted := isWord_redactWords hfirst false
  have hunbroken : ∀ c ∈ (shown (namedAfter false first) word).take k, isWhitespace c = false :=
    fun c hc => (isWord_shown hword).unbroken c (List.mem_of_mem_take hc)
  obtain ⟨hfront, hlast⟩ := Library.cut_unique (Library.endsAtBreak_frontOf _)
    (endsAtBreak_spaced (redactWords false first)) (Library.unbroken_wordBefore _) hunbroken
    (Library.frontOf_append_wordBefore (spaced (redactWords false first) ++
      (shown (namedAfter false first) word).take k))
  unfold SettledCut
  dsimp only
  rw [hfront, hlast, words_spaced hlisted, redactWords_again, List.length_take,
    Nat.min_eq_left hk]
  simp only [true_and]
  cases hnamed : namedAfter false (redactWords false first) with
  | true =>
      -- The word before names a credential both times, and the marker comes back whole.
      have hintroduced := (namedAfter_redactWords first).mp hnamed
      have hmarker : shown (namedAfter false first) word = marker := by
        rw [hintroduced.named]
        rfl
      rw [hmarker] at hk ⊢
      show marker.take k <+: marker ∧ k < marker.length ↔ _
      constructor
      · rintro ⟨-, hlt⟩ ⟨heq, -⟩
        omega
      · intro hnot
        refine ⟨List.take_prefix k marker, Nat.lt_of_le_of_ne hk fun heq => ?_⟩
        exact hnot ⟨heq, .inl hintroduced⟩
  | false =>
      have hnot : ¬ Introduced first := by
        rw [← namedAfter_redactWords, hnamed]
        exact Bool.false_ne_true
      -- A mark before the cut is found again in the cut word; one after it is lost with the rest.
      by_cases hmark : ∃ kept, markAt (namedAfter false first) word = some kept ∧ kept ≠ 0 ∧
          kept ≤ k
      · obtain ⟨kept, hkept, hpos, hle⟩ := hmark
        have hfalse := named_eq_false hkept hpos
        rw [hfalse] at hkept hk ⊢
        rw [shown_cut_of_le hkept hpos hle]
        constructor
        · rintro ⟨-, hlt⟩ ⟨heq, -⟩
          omega
        · intro hdone
          refine ⟨List.take_prefix k _, Nat.lt_of_le_of_ne hk fun heq => ?_⟩
          exact hdone ⟨heq, .inr ⟨kept, by rw [hfalse]; exact hkept, hpos⟩⟩
      · have hshort : ∀ kept, markAt (namedAfter false first) word = some kept → kept ≠ 0 →
            k < kept := by
          intro kept hkept hpos
          by_contra hle
          exact hmark ⟨kept, hkept, hpos, by omega⟩
        rw [shown_cut_of_not hshort]
        refine iff_of_true ⟨List.prefix_append _ _, ?_⟩ ?_
        · rw [List.length_append, List.length_take, List.length_singleton]
          omega
        · rintro ⟨heq, hintroduced | ⟨kept, hkept, hpos⟩⟩
          · exact hnot hintroduced
          · have hlt := hshort kept hkept hpos
            have hfalse := named_eq_false hkept hpos
            rw [hfalse] at hkept
            have hle := markAt_le hkept
            rw [hfalse, shown_of_some hkept, List.length_append, List.length_take] at heq
            omega

/-- The cut comes right after a marker that is made again, and the message does not end there. -/
def LosesEllipsis (listed : List Word) : Prop :=
  ∃ first word last, listed = first ++ word :: last ∧ last ≠ [] ∧
    lengthShown false first + (shown (namedAfter false first) word).length = MAX ∧
      Remade first word

theorem infix_of_mem_words {text word : List Char} (h : word ∈ words isWhitespace text) :
    word <:+: text := by
  obtain ⟨first, last, hwords⟩ := List.append_of_mem h
  obtain ⟨before, after, rfl, -⟩ := Library.exists_around hwords
  exact ⟨before, after, List.append_assoc _ _ _⟩

theorem begin_not_shown {text : List Char} (h : ¬ BEGIN <:+: text) :
    ¬ BEGIN <:+: [' '].intercalate (redactWords false (words isWhitespace text)) := by
  rintro ⟨before, after, heq⟩
  rw [List.append_assoc] at heq
  obtain ⟨first, front, back, last, hlisted, -⟩ :=
    exists_of_intercalate begin_ne_nil (by decide) heq.symm
  obtain ⟨earlier, source, later, hwords, -, hshown⟩ := exists_of_redactWords hlisted
  have hsource : BEGIN <:+: source :=
    begin_of_shown ⟨front, back, by rw [hshown, List.append_assoc]⟩
  refine h (hsource.trans (@infix_of_mem_words text source ?_))
  rw [hwords]
  exact List.mem_append_right _ List.mem_cons_self

theorem sanitised_sanitised_iff {text : List Char} (h : ¬ BEGIN <:+: text) :
    sanitised (sanitised text) = sanitised text ↔ ¬ LosesEllipsis (words isWhitespace text) := by
  have hnone := begin_not_shown h
  have hsanitised : sanitised text =
      cap ([' '].intercalate (redactWords false (words isWhitespace text))) := by
    unfold sanitised
    rw [redact_of_none ((beforeSlice_eq_none begin_ne_nil).mpr h)]
  have hlisted := isWord_words text
  rw [hsanitised]
  generalize hout : [' '].intercalate (redactWords false (words isWhitespace text)) = out at *
  generalize words isWhitespace text = listed at *
  -- Where the message is cut between two words shown, it is cut there the second time.
  have hat : ∀ {first word last k}, listed = first ++ word :: last →
      (spaced (redactWords false first)).length + k = MAX →
      k ≤ (shown (namedAfter false first) word).length → MAX < out.length →
      (sanitised (cap out) = cap out ↔
        ¬ (k = (shown (namedAfter false first) word).length ∧ Remade first word)) := by
    intro first word last k hsplit hlength hk hlong
    have htake : out.take MAX = spaced (redactWords false first) ++
        (shown (namedAfter false first) word).take k := by
      rw [← hout, hsplit, redactWords_append, redactWords_cons, intercalate_eq, List.take_append,
        List.take_of_length_le (by omega), ← hlength, Nat.add_sub_cancel_left,
        List.take_append_of_le_length hk]
    have hcap : cap out = out.take MAX ++ ['…'] := by
      unfold cap
      rw [if_neg (by omega)]
    have hbegin : ¬ BEGIN <:+: out.take MAX :=
      fun hfound => hnone (hfound.trans (List.take_prefix MAX out).isInfix)
    have hmax : (out.take MAX).length = MAX := by
      rw [List.length_take]
      omega
    rw [hcap, settled_cut hmax hbegin, htake, settledCut_iff ?_ ?_ hk]
    · intro other hother
      exact hlisted other (by rw [hsplit]; exact List.mem_append_left _ hother)
    · exact hlisted word (by rw [hsplit]; exact List.mem_append_right _ List.mem_cons_self)
  by_cases hlong : MAX < out.length
  · constructor
    · rintro hsame ⟨first, word, last, hsplit, -, hlength, hremade⟩
      rw [← length_spaced] at hlength
      exact (hat hsplit hlength (Nat.le_refl _) hlong).mp hsame ⟨rfl, hremade⟩
    · intro hkeeps
      rw [← hout] at hlong
      obtain ⟨first, word, last, k, hshown, hlength, hk, hlast⟩ := exists_cut hlong
      obtain ⟨earlier, source, later, hsplit, hearlier, hsource⟩ := exists_of_redactWords hshown
      rw [hout] at hlong
      rw [← hearlier] at hlength
      rw [← hsource] at hk hlast
      refine (hat hsplit hlength hk hlong).mpr fun hlost => hkeeps ?_
      refine ⟨earlier, source, later, hsplit, ?_, ?_, hlost.2⟩
      · rintro rfl
        refine hlast hlost.1 ?_
        have hcount := congrArg List.length hshown
        have hfirst := congrArg List.length hearlier
        rw [length_redactWords] at hcount hfirst
        rw [hsplit, List.length_append, List.length_append, List.length_cons, List.length_cons,
          List.length_nil] at hcount
        exact List.length_eq_zero_iff.mp (by omega)
      · rw [← length_spaced, ← hlost.1]
        exact hlength
  · have hcap : cap out = out := by
      unfold cap
      rw [if_pos (by omega)]
    have hwords : words isWhitespace out = redactWords false listed := by
      rw [← hout]
      exact Library.words_intercalate (by decide) (isWord_redactWords hlisted false)
    rw [hcap]
    refine iff_of_true ?_ ?_
    · unfold sanitised
      rw [redact_of_none ((beforeSlice_eq_none begin_ne_nil).mpr hnone), hwords,
        redactWords_again, hout, hcap]
    · rintro ⟨first, word, last, rfl, hlast, hlength, -⟩
      obtain ⟨next, rest, rfl⟩ := List.exists_cons_of_ne_nil hlast
      rw [redactWords_append, redactWords_cons, redactWords_cons, intercalate_eq] at hout
      have hwhole := congrArg List.length hout
      rw [List.length_append, length_spaced, List.length_append] at hwhole
      have hled : 0 < (led (shown (introducesACredential word) next ::
          redactWords (introducesACredential next) rest)).length := by simp [led]
      omega

/-! ## Any message -/

/-- Single spaces, and every word shown as it is. -/
def Steady (text : List Char) : Prop :=
  redactWords false (words isWhitespace text) = words isWhitespace text ∧
    [' '].intercalate (words isWhitespace text) = text

/-- Up to a cut, single spaces, and no word of which anything but a marker is taken out; and of the
word at the cut, nothing but a start of what may come back. -/
structure SettledUpTo (cut back : List Char) : Prop where
  spaces : spaced (words isWhitespace (frontOf isWhitespace cut)) = frontOf isWhitespace cut
  marks : ∀ first word last, words isWhitespace (frontOf isWhitespace cut) = first ++ word :: last →
    ∀ kept ∈ markAt (namedAfter false first) word, word.drop kept = marker
  last : ∀ kept ∈ markAt (namedAfter false (words isWhitespace (frontOf isWhitespace cut)))
      (wordBefore isWhitespace cut), (wordBefore isWhitespace cut).drop kept <+: back

/-- What comes before a PEM block is settled as far as it is shown, where a marker that is cut may
come back; without a block, no ellipsis is lost. -/
def Settled (text : List Char) : Prop :=
  match beforeSlice BEGIN text with
  | some kept => SettledUpTo (kept.take MAX) (if kept.length < MAX then [] else marker.dropLast)
  | none => ¬ LosesEllipsis (words isWhitespace text)

theorem sanitised_short_iff {text : List Char} (hshort : text.length ≤ MAX)
    (hnone : ¬ BEGIN <:+: text) : sanitised text = text ↔ Steady text := by
  have hredact := redact_of_none ((beforeSlice_eq_none begin_ne_nil).mpr hnone)
  have hshown := isWord_redactWords (isWord_words text) false
  unfold sanitised Steady
  constructor
  · intro hsame
    have hredacted : redact text = text := by
      unfold cap at hsame
      split at hsame
      · exact hsame
      · next hlong =>
          have hlength := congrArg List.length hsame
          rw [List.length_append, List.length_take, List.length_singleton] at hlength
          omega
    rw [hredact] at hredacted
    have hwords := @Library.words_intercalate _ isWhitespace ' ' (by decide) _ hshown
    rw [hredacted] at hwords
    rw [← hwords] at hredacted
    exact ⟨hwords.symm, hredacted⟩
  · rintro ⟨hsame, hspaced⟩
    rw [hredact, hsame, hspaced]
    unfold cap
    rw [if_pos hshort]

/-- A word is shown as it is where its mark is followed by the marker. -/
theorem shown_eq_self_iff {named : Bool} {word : Word} :
    shown named word = word ↔ ∀ kept ∈ markAt named word, word.drop kept = marker := by
  cases hmark : markAt named word with
  | none => exact iff_of_true (shown_of_none hmark) nofun
  | some kept =>
      rw [shown_of_some hmark]
      conv => lhs; rhs; rw [← List.take_append_drop kept word]
      rw [List.append_cancel_left_eq]
      constructor
      · rintro hmarker other hother
        rw [← Option.mem_some.mp hother, hmarker]
      · exact fun h => (h kept rfl).symm

theorem redactWords_eq_self_iff {named : Bool} {listed : List Word} :
    redactWords named listed = listed ↔ ∀ first word last, listed = first ++ word :: last →
      ∀ kept ∈ markAt (namedAfter named first) word, word.drop kept = marker := by
  simp only [← shown_eq_self_iff]
  constructor
  · rintro hsame first word last rfl
    rw [redactWords_append, redactWords_cons] at hsame
    obtain ⟨-, hlast⟩ := List.append_inj hsame (length_redactWords named first)
    exact (List.cons.inj hlast).1
  · intro h
    induction listed generalizing named with
    | nil => rfl
    | cons word listed ih =>
        have hword : shown named word = word := h [] word listed rfl
        rw [redactWords_cons, hword,
          ih fun first other last heq => h (word :: first) other last (by rw [heq]; rfl)]

theorem markAt_le_length {named : Bool} {word : Word} {kept : Nat}
    (h : markAt named word = some kept) : kept ≤ word.length := by
  cases named with
  | true =>
      rw [markAt_true, Option.some.injEq] at h
      omega
  | false => exact markAt_le h

/-- A word is marked where its start is, also after a name. -/
theorem Inert.markAt_named {c : Char} {rest : Word} (h : Inert c rest) (named : Bool)
    (front : Word) : markAt named (front ++ c :: rest) = markAt named front := by
  cases named with
  | true => rfl
  | false => exact h.markAt_eq front

/-- A proper start of the marker. -/
theorem prefix_marker_iff {word : Word} :
    word <+: marker ∧ word.length < marker.length ↔ word <+: marker.dropLast := by
  have hmarker : marker = marker.dropLast ++ [']'] := by decide
  constructor
  · rintro ⟨hstart, hlength⟩
    rw [hmarker, List.prefix_concat_iff] at hstart
    rcases hstart with rfl | hstart
    · rw [← hmarker] at hlength
      omega
    · exact hstart
  · intro hstart
    refine ⟨hstart.trans (List.dropLast_prefix marker), ?_⟩
    have hlength := hstart.length_le
    rw [List.length_dropLast] at hlength
    have hpositive : 0 < marker.length := by decide
    omega

/-- A marker starts nowhere but at its front. -/
theorem prefix_marker_of_cut {word : Word} {m : Nat} (hm : m + 1 < marker.length) :
    word ++ marker.take (m + 1) <+: marker.dropLast ↔ word <+: [] := by
  rw [← prefix_marker_iff, List.prefix_nil]
  constructor
  · rintro ⟨hstart, -⟩
    cases word with
    | nil => rfl
    | cons c word =>
        have hrest : word ++ marker.take (m + 1) <+: "redacted]".toList :=
          (List.cons_prefix_cons.mp hstart).2
        have hfirst : '[' ∈ marker.take (m + 1) := List.mem_cons_self
        exact absurd (hrest.subset (List.mem_append_right word hfirst)) (by decide)
  · rintro rfl
    refine ⟨List.take_prefix _ _, ?_⟩
    rw [List.nil_append, List.length_take]
    omega

/-- What is shown up to a cut is settled where what stands before is, and the word at the cut is a
start of what may come back, with what was added to it. -/
theorem settledCut_added {cut added : List Char} (hadded : ∀ c ∈ added, isWhitespace c = false)
    (hmark : ∀ named word, markAt named (word ++ (added ++ ['…'])) = markAt named word) :
    SettledCut (cut ++ added) ↔
      spaced (words isWhitespace (frontOf isWhitespace cut)) = frontOf isWhitespace cut ∧
      redactWords false (words isWhitespace (frontOf isWhitespace cut)) =
        words isWhitespace (frontOf isWhitespace cut) ∧
      ∀ kept ∈ markAt (namedAfter false (words isWhitespace (frontOf isWhitespace cut)))
          (wordBefore isWhitespace cut),
        (wordBefore isWhitespace cut).drop kept ++ added <+: marker.dropLast := by
  have hunbroken : ∀ c ∈ wordBefore isWhitespace cut ++ added, isWhitespace c = false := by
    intro c hc
    rcases List.mem_append.mp hc with hc | hc
    · exact Library.unbroken_wordBefore cut c hc
    · exact hadded c hc
  obtain ⟨hfront, hlast⟩ := Library.cut_unique (Library.endsAtBreak_frontOf (cut ++ added))
    (Library.endsAtBreak_frontOf cut) (Library.unbroken_wordBefore _) hunbroken (by
      rw [Library.frontOf_append_wordBefore, ← List.append_assoc,
        Library.frontOf_append_wordBefore])
  unfold SettledCut
  dsimp only
  rw [hfront, hlast, List.append_assoc, and_left_comm]
  refine and_congr_right fun _ => and_congr_right fun _ => ?_
  generalize namedAfter false (words isWhitespace (frontOf isWhitespace cut)) = named
  generalize wordBefore isWhitespace cut = word
  -- What was added marks nothing itself: the marker comes back right after the mark, if any.
  cases hword : markAt named word with
  | none =>
      rw [shown_of_none (by rw [hmark, hword])]
      refine iff_of_true ⟨?_, ?_⟩ nofun
      · rw [← List.append_assoc]
        exact List.prefix_append _ _
      · simp
  | some kept =>
      have hle := markAt_le_length hword
      rw [shown_of_some (by rw [hmark, hword]), List.take_append_of_le_length hle]
      have hsplit := List.take_append_drop kept word
      have hparts : word ++ added = word.take kept ++ (word.drop kept ++ added) := by
        rw [← List.append_assoc, hsplit]
      rw [hparts, List.prefix_append_right_inj, List.length_append,
        @List.length_append _ (word.take kept) marker, Nat.add_lt_add_iff_left, prefix_marker_iff]
      constructor
      · intro hstart other hother
        rw [← Option.mem_some.mp hother]
        exact hstart
      · exact fun h => h kept rfl

theorem settledUpTo_and {cut back : List Char} : SettledUpTo cut back ↔
    spaced (words isWhitespace (frontOf isWhitespace cut)) = frontOf isWhitespace cut ∧
    redactWords false (words isWhitespace (frontOf isWhitespace cut)) =
      words isWhitespace (frontOf isWhitespace cut) ∧
    ∀ kept ∈ markAt (namedAfter false (words isWhitespace (frontOf isWhitespace cut)))
      (wordBefore isWhitespace cut), (wordBefore isWhitespace cut).drop kept <+: back := by
  rw [redactWords_eq_self_iff]
  exact ⟨fun h => ⟨h.spaces, h.marks, h.last⟩, fun ⟨hspaces, hmarks, hlast⟩ =>
    ⟨hspaces, hmarks, hlast⟩⟩

/-- What comes before a PEM block is shown as it is, with its marker, where it is settled. -/
theorem steady_marked_iff (kept : List Char) : Steady (kept ++ marker) ↔ SettledUpTo kept [] := by
  have hmarker : IsWord isWhitespace marker := ⟨by decide, by decide⟩
  have hwords : words isWhitespace (kept ++ marker) =
      words isWhitespace (frontOf isWhitespace kept) ++
        [wordBefore isWhitespace kept ++ marker] := by
    have haround := Library.words_around_piece hmarker kept []
    rw [List.append_nil] at haround
    rw [haround]
    simp [wordAfter, backOf]
  have hsplit := @Library.frontOf_append_wordBefore _ isWhitespace kept
  rw [settledUpTo_and]
  unfold Steady
  rw [hwords, intercalate_eq, redactWords_append, redactWords_cons]
  generalize words isWhitespace (frontOf isWhitespace kept) = listed
  conv => lhs; rhs; rhs; rw [← hsplit, List.append_assoc]
  generalize frontOf isWhitespace kept = front
  generalize wordBefore isWhitespace kept = word
  show redactWords false listed ++ [_] = listed ++ [_] ∧ spaced listed ++ (_ ++ []) = _ ↔ _
  have hmark : ∀ named, markAt named (word ++ marker) = markAt named word :=
    fun named => inert_marker.markAt_named named word
  rw [List.append_nil, List.append_cancel_right_eq, List.append_singleton_inj, shown_eq_self_iff,
    hmark, and_comm]
  refine and_congr_right fun _ => and_congr_right fun _ => forall₂_congr fun kept hkept => ?_
  have hle := markAt_le_length hkept
  rw [List.drop_append_of_le_length hle, List.append_left_eq_self, List.prefix_nil]

/-- What comes before a PEM block and its marker, as it is or cut, is shown as it is where it is
settled. -/
theorem settledUpTo_iff (kept : List Char) :
    (if (kept ++ marker).length ≤ MAX then Steady (kept ++ marker)
      else SettledCut ((kept ++ marker).take MAX)) ↔
      SettledUpTo (kept.take MAX) (if kept.length < MAX then [] else marker.dropLast) := by
  by_cases hlength : kept.length < MAX
  · rw [if_pos hlength, List.take_of_length_le (Nat.le_of_lt hlength)]
    split
    · exact steady_marked_iff kept
    · next hlong =>
        -- The cut falls in the marker, and no start of it is left to come back.
        rw [List.length_append] at hlong
        obtain ⟨m, hm⟩ : ∃ m, MAX - kept.length = m + 1 := ⟨MAX - kept.length - 1, by omega⟩
        have hmarker : ∀ c ∈ marker, isWhitespace c = false := by decide
        have hadded := @settledCut_added kept (marker.take (m + 1))
          (fun c hc => hmarker c (List.mem_of_mem_take hc))
          fun named word => (inert_cut_marker m).markAt_named named word
        rw [List.take_append, List.take_of_length_le (Nat.le_of_lt hlength), hm, settledUpTo_and,
          hadded]
        simp only [prefix_marker_of_cut (show m + 1 < marker.length by omega)]
  · rw [if_neg hlength, if_neg (by
      rw [List.length_append]
      have hpositive : 0 < marker.length := by decide
      omega), List.take_append_of_le_length (by omega), settledUpTo_and]
    have hnone := @settledCut_added (kept.take MAX) [] nofun fun named word =>
      inert_ellipsis.markAt_named named word
    simpa only [List.append_nil] using hnone

theorem sanitised_settled_iff (text : List Char) :
    sanitised (sanitised text) = sanitised text ↔ Settled text := by
  unfold Settled
  cases hslice : beforeSlice BEGIN text with
  | none => exact sanitised_sanitised_iff ((beforeSlice_eq_none begin_ne_nil).mp hslice)
  | some kept =>
      -- Nothing before the first block opens another.
      have hbegin : ¬ BEGIN <:+: kept ++ marker := by
        intro hfound
        obtain ⟨before, rest, hkept⟩ := begin_of_marked hfound
        obtain ⟨more, hmore⟩ := prefix_of_beforeSlice hslice
        obtain ⟨first, hfirst, hlength⟩ :=
          exists_beforeSlice begin_ne_nil before (rest ++ (BEGIN ++ more))
        have htext : before ++ (BEGIN ++ (rest ++ (BEGIN ++ more))) = text := by
          rw [← hmore, ← hkept]
          simp only [List.append_assoc]
        rw [htext, hslice, Option.some.injEq] at hfirst
        have hwhole := congrArg List.length hkept
        rw [List.length_append, List.length_append, ← hfirst.symm] at hwhole
        have hpositive := List.length_pos_iff.mpr begin_ne_nil
        omega
      have hsanitised : sanitised text = cap (kept ++ marker) := by
        unfold sanitised
        rw [redact_of_some hslice]
      dsimp only
      rw [hsanitised, ← settledUpTo_iff]
      unfold cap
      split
      · next hshort => exact sanitised_short_iff hshort hbegin
      · next hlong =>
          refine settled_cut ?_ fun hfound =>
            hbegin (hfound.trans (List.take_prefix MAX _).isInfix)
          rw [List.length_take]
          omega

/-! ## What the redaction aims at -/

/-- Where a credential stands: after a PEM block opens, in a word with a known credential, in the
query of a URL, after a name and its sign, in the word after a name, or after the name of an
`Authorization` header, with any scheme. -/
inductive Aimed (before value after : List Char) : Prop
  | pem (h : BEGIN <:+: before)
  | known (h : carriesAPrefix (wordBefore isWhitespace before ++
      (value ++ wordAfter isWhitespace after)) = true)
  | query (h : isQueried (wordBefore isWhitespace before) = true)
  | named (name rest : Word) (sign : Char) (hname : name.map toLowercase ∈ CREDENTIAL_NAMES)
      (hsign : sign = '=' ∨ sign = ':') (h : wordBefore isWhitespace before = name ++ sign :: rest)
  | follows (h : namedAfter false (words isWhitespace (frontOf isWhitespace before)) = true)
  | authorization (front header rest : List Char) (hfront : EndsAtBreak isWhitespace front)
      (hheader : header.map toLowercase = "authorization:".toList)
      (h : before = front ++ (header ++ rest))

/-- A value in the part of a word that is taken out. -/
theorem not_bared_of_markAt {before value after : List Char} (hvalue : value ≠ [])
    (hnone : beforeSlice BEGIN (before ++ (value ++ after)) = none) {kept : Nat}
    (h : markAt (namedAfter false (words isWhitespace (frontOf isWhitespace before)))
      (wordBefore isWhitespace before ++ (value ++ wordAfter isWhitespace after)) = some kept)
    (hkept : kept ≤ (wordBefore isWhitespace before).length) : ¬ Bared before value after := by
  unfold Bared
  rw [hnone]
  intro hbared
  have hlength := hbared kept h
  rw [List.length_append] at hlength
  have hpositive := List.length_pos_iff.mpr hvalue
  omega

/-- A word with a queried URL in it is marked. -/
theorem exists_markAt_of_isQueried {word : Word} (h : isQueried word = true) :
    ∃ kept, markAt false word = some kept := by
  cases hcarried : carriesAPrefix word with
  | true => exact ⟨_, markAt_eq_some.mpr (.carried hcarried rfl)⟩
  | false => exact ⟨_, markAt_eq_some.mpr (.queried hcarried h rfl)⟩

/-- A word that assigns to a name is marked. -/
theorem exists_markAt_of_isAssigned {word : Word} (h : isAssigned word = true) :
    ∃ kept, markAt false word = some kept := by
  cases hcarried : carriesAPrefix word with
  | true => exact ⟨_, markAt_eq_some.mpr (.carried hcarried rfl)⟩
  | false =>
      cases hqueried : isQueried word with
      | true =>
          rw [not_isAssigned_of_isQueried hqueried] at h
          cases h
      | false => exact ⟨_, markAt_eq_some.mpr (.assigned hcarried hqueried h rfl)⟩

theorem isAssigned_of_name {name rest : Word}
    (hname : name.map toLowercase ∈ CREDENTIAL_NAMES) :
    isAssigned (name ++ '=' :: rest) = true := by
  have hclean : ∀ other ∈ CREDENTIAL_NAMES, '=' ∉ other ∧
      (other.rdropWhile fun c => c == ':' || c == '=') ∈ CREDENTIAL_NAMES := by
    decide
  obtain ⟨hsign, hbase⟩ := hclean _ hname
  have hfront : ∀ c ∈ name, (c != '=') = true := by
    intro c hc
    rw [bne_iff_ne]
    rintro rfl
    exact hsign (List.mem_map.mpr ⟨'=', hc, by decide⟩)
  unfold isAssigned
  rw [List.takeWhile_append_of_pos hfront, List.takeWhile_cons_of_neg (by decide),
    List.append_nil, Bool.and_eq_true, List.contains_iff_mem]
  refine ⟨List.mem_append_right _ List.mem_cons_self, ?_⟩
  exact List.any_eq_true.mpr ⟨_, hbase, beq_self_eq_true _⟩

/-- What the redaction aims at is taken out, but before a PEM block, after a colon and after the
name of a header. -/
theorem Aimed.covered {before value after : List Char} (h : Aimed before value after)
    (hvalue : value ≠ []) :
    ¬ Bared before value after ∨
    (∃ kept, beforeSlice BEGIN (before ++ (value ++ after)) = some kept ∧
      (before ++ value).length ≤ kept.length) ∨
    (∃ name rest, name.map toLowercase ∈ CREDENTIAL_NAMES ∧
      wordBefore isWhitespace before = name ++ ':' :: rest) ∨
    ∃ front header rest, EndsAtBreak isWhitespace front ∧
      header.map toLowercase = "authorization:".toList ∧ before = front ++ (header ++ rest) := by
  have hpositive := List.length_pos_iff.mpr hvalue
  cases hslice : beforeSlice BEGIN (before ++ (value ++ after)) with
  | some kept =>
      by_cases hlength : (before ++ value).length ≤ kept.length
      · exact .inr (.inl ⟨kept, rfl, hlength⟩)
      · refine .inl ?_
        unfold Bared
        rw [hslice]
        exact hlength
  | none =>
      -- A word that the name before it does not take out may be marked itself.
      have hmarked : ∀ {kept : Nat}, markAt false (wordBefore isWhitespace before ++
          (value ++ wordAfter isWhitespace after)) = some kept →
          kept ≤ (wordBefore isWhitespace before).length → ¬ Bared before value after := by
        intro kept hmark hkept
        cases hnamed : namedAfter false (words isWhitespace (frontOf isWhitespace before)) with
        | true =>
            refine @not_bared_of_markAt _ _ _ hvalue hslice 0 ?_ (Nat.zero_le _)
            rw [hnamed]
            rfl
        | false =>
            refine not_bared_of_markAt hvalue hslice ?_ hkept
            rw [hnamed]
            exact hmark
      -- The marks are looked for in the word from its start, so what follows the value adds only
      -- known credentials.
      have hstart : ∀ {kept : Nat}, markAt false (wordBefore isWhitespace before) = some kept →
          ¬ Bared before value after := by
        intro kept hmark
        cases hcarried : carriesAPrefix (wordBefore isWhitespace before ++
            (value ++ wordAfter isWhitespace after)) with
        | true => exact hmarked (markAt_eq_some.mpr (.carried hcarried rfl)) (Nat.zero_le _)
        | false => exact hmarked (markAt_append hmark hcarried) (markAt_le hmark)
      cases h with
      | pem h =>
          have hfound : BEGIN <:+: before ++ (value ++ after) :=
            h.trans (List.prefix_append _ _).isInfix
          exact absurd hfound ((beforeSlice_eq_none begin_ne_nil).mp hslice)
      | known h => exact .inl (hmarked (markAt_eq_some.mpr (.carried h rfl)) (Nat.zero_le _))
      | query h =>
          obtain ⟨_, hmark⟩ := exists_markAt_of_isQueried h
          exact .inl (hstart hmark)
      | named name rest sign hname hsign h =>
          rcases hsign with rfl | rfl
          · obtain ⟨_, hmark⟩ := exists_markAt_of_isAssigned (isAssigned_of_name hname)
            exact .inl (hstart (h ▸ hmark))
          · exact .inr (.inr (.inl ⟨name, rest, hname, h⟩))
      | follows h =>
          refine .inl (@not_bared_of_markAt _ _ _ hvalue hslice 0 ?_ (Nat.zero_le _))
          rw [h]
          rfl
      | authorization front header rest hfront hheader h =>
          exact .inr (.inr (.inr ⟨front, header, rest, hfront, hheader, h⟩))

/-- What is shown of a message is short; it holds a value exactly where the redaction does not reach
the value and the cut does not either, or where the value is read off a marker or the ellipsis; and
it is shown again as it is where the message is settled. -/
theorem sanitise_shows_what_it_does_not_reach (text : String) :
    (sanitise text).length ≤ 201 ∧
    (∀ before value after, text.toList = before ++ (value ++ after) → OnceAt before value after →
      (¬ value <:+: (sanitise text).toList ↔
        ¬ (Bared before value after ∧ Reached before value after) ∧
          ¬ Echoed text.toList value ∧ ¬ Trailed text.toList value)) ∧
    (sanitise (sanitise text) = sanitise text ↔ Settled text.toList) := by
  have hlist : (sanitise text).toList = sanitised text.toList := String.toList_ofList
  refine ⟨?_, ?_, ?_⟩
  · rw [← String.length_toList, hlist]
    exact length_cap _
  · intro before value after htext honce
    rw [hlist, htext, infix_sanitised_iff honce, not_or, not_or]
  · rw [← sanitised_settled_iff, ← hlist, ← String.toList_inj]
    show (sanitise (sanitise text)).toList = _ ↔ _
    rw [show (sanitise (sanitise text)).toList = sanitised (sanitise text).toList from
      String.toList_ofList]

/-- A value stands at one place where no other holds it. -/
theorem OnceAt.of_places {before value after : List Char} (hword : IsWord isWhitespace value)
    (h : ∀ n ∈ List.range ((before ++ (value ++ after)).length + 1),
      value <+: (before ++ (value ++ after)).drop n → n = before.length) :
    OnceAt before value after := by
  refine ⟨hword, fun front back heq => ?_⟩
  have hlength : front.length = before.length := by
    refine h front.length ?_ ?_
    · rw [← heq, List.mem_range, List.length_append]
      omega
    · rw [← heq, List.drop_left]
      exact List.prefix_append value back
  exact (List.append_inj heq hlength).1

/-- The value of an assignment is not shown. -/
theorem assigned_token_is_not_shown :
    ¬ "hunter2".toList <:+: (sanitise "login failed: token=hunter2").toList := by
  refine ((sanitise_shows_what_it_does_not_reach "login failed: token=hunter2").2.1
    "login failed: token=".toList "hunter2".toList [] (by decide +kernel)
    (.of_places ⟨by decide, by decide +kernel⟩ (by decide +kernel))).mpr ⟨?_,
      not_echoed (c := '2') (by decide +kernel) (by decide), not_trailed (by decide +kernel)⟩
  rintro ⟨hbared, -⟩
  revert hbared
  unfold Bared
  rw [show beforeSlice BEGIN _ = none by decide +kernel]
  intro hbared
  have hkept := hbared 6 (by decide +kernel)
  revert hkept
  decide +kernel

/-- The credentials of an `Authorization` header are shown after a scheme that names nothing. -/
theorem basic_credentials_are_shown :
    ∃ before value after, "Authorization: Basic dXNlcjpwYXNz".toList =
        before ++ (value ++ after) ∧
      Aimed before value after ∧ OnceAt before value after ∧
        value <:+: (sanitise "Authorization: Basic dXNlcjpwYXNz").toList := by
  refine ⟨"Authorization: Basic ".toList, "dXNlcjpwYXNz".toList, [], by decide +kernel,
    .authorization [] "Authorization:".toList " Basic ".toList nofun (by decide +kernel)
      (by decide +kernel),
    .of_places ⟨by decide, by decide +kernel⟩ (by decide +kernel),
    "Authorization: [redacted] ".toList, [], by decide +kernel⟩

end Diagnostic
end Platform
end SaasFabric
