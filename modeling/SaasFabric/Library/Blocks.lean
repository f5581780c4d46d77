import Mathlib.Data.List.Basic
import Mathlib.Tactic.Common

/-!
# Entries of a list of lines

Some lines open an entry, and the lines right under such a line are the entry's own.  An entry is
rewritten by putting other lines in place of its own; what is outside the entries stays, and an
entry of another kind is left as it is, or goes with the lines it stood among.
-/

namespace SaasFabric
namespace Library
namespace Blocks

variable {ℓ : Type}

/-- Rewrites every entry, and counts them.  `opened` is the line of the entry whose own lines are
being left out. -/
def rewrite (opens : ℓ → Bool) (under : ℓ → ℓ → Bool) (own : ℓ → List ℓ) :
    Option ℓ → List ℓ → List ℓ × Nat
  | _, [] => ([], 0)
  | opened, line :: rest =>
      if opened.any fun opening => under opening line then
        rewrite opens under own opened rest
      else if opens line then
        let (out, rewritten) := rewrite opens under own (some line) rest
        (line :: own line ++ out, rewritten + 1)
      else
        let (out, rewritten) := rewrite opens under own none rest
        (line :: out, rewritten)

/-- The lines that are no entry's own. -/
def outside (opens : ℓ → Bool) (under : ℓ → ℓ → Bool) : Option ℓ → List ℓ → List ℓ
  | _, [] => []
  | opened, line :: rest =>
      if opened.any fun opening => under opening line then
        outside opens under opened rest
      else
        line :: outside opens under (if opens line then some line else none) rest

/-- The own lines of the first entry. -/
def replaced (opens : ℓ → Bool) (under : ℓ → ℓ → Bool) : List ℓ → List ℓ
  | [] => []
  | line :: rest => if opens line then rest.takeWhile (under line) else replaced opens under rest

/-- Every line that opens an entry, with the lines right under it. -/
def entries (opens : ℓ → Bool) (under : ℓ → ℓ → Bool) : List ℓ → List (ℓ × List ℓ)
  | [] => []
  | line :: rest =>
      if opens line then (line, rest.takeWhile (under line)) :: entries opens under rest
      else entries opens under rest

/-- The one line that opens an entry, with its own lines. -/
def OnlyEntry (opens : ℓ → Bool) (under : ℓ → ℓ → Bool) (lines : List ℓ) (line : ℓ)
    (body : List ℓ) : Prop :=
  ∃ before after, lines = before ++ line :: (body ++ after) ∧ opens line = true ∧
    (∀ other ∈ before, opens other = false) ∧
      (∀ other ∈ body, under line other = true ∧ opens other = false) ∧
        (∀ other ∈ after, opens other = false) ∧
          ∀ other, after.head? = some other → under line other = false

/-- No line opens an entry. -/
def NoEntry (opens : ℓ → Bool) (lines : List ℓ) : Prop :=
  ∀ line ∈ lines, opens line = false

section Rewriting

variable {opens : ℓ → Bool} {under : ℓ → ℓ → Bool} {own : ℓ → List ℓ}

theorem rewrite_cons_fst (opened : Option ℓ) (line : ℓ) (rest : List ℓ) :
    (rewrite opens under own opened (line :: rest)).1 =
      if opened.any fun opening => under opening line then
        (rewrite opens under own opened rest).1
      else if opens line then
        line :: own line ++ (rewrite opens under own (some line) rest).1
      else
        line :: (rewrite opens under own none rest).1 := by
  rw [rewrite]
  split
  · rfl
  · split <;> rfl

/-- Where nothing more is rewritten, the own lines of the entry above are left out and the rest
stays. -/
theorem rewrite_zero {opened : Option ℓ} {lines out : List ℓ}
    (h : rewrite opens under own opened lines = (out, 0)) :
    ∃ body, lines = body ++ out ∧
      (∀ other ∈ body, ∃ line, opened = some line ∧ under line other = true) ∧
        (∀ line other, opened = some line → out.head? = some other → under line other = false) ∧
          NoEntry opens out := by
  induction lines generalizing opened out with
  | nil =>
      cases h
      exact ⟨[], rfl, by simp, by simp, by simp [NoEntry]⟩
  | cons line lines ih =>
      rw [rewrite] at h
      split at h
      · rename_i hunder
        obtain ⟨opening, hopening, hline⟩ := (Option.any_eq_true _ _).mp hunder
        obtain ⟨body, hlines, hbody, hhead, hout⟩ := ih h
        refine ⟨line :: body, by rw [hlines, List.cons_append], ?_, hhead, hout⟩
        intro other hother
        rcases List.mem_cons.mp hother with rfl | hmem
        · exact ⟨opening, hopening, hline⟩
        · exact hbody other hmem
      · rename_i hunder
        split at h
        · cases (Prod.mk.inj h).2
        · rename_i hopens
          rcases hrest : rewrite opens under own none lines with ⟨rest, count⟩
          rw [hrest] at h
          cases h
          obtain ⟨body, hlines, hbody, -, hout⟩ := ih hrest
          have hempty : body = [] := by
            rw [List.eq_nil_iff_forall_not_mem]
            intro other hother
            obtain ⟨_, hnone, -⟩ := hbody other hother
            cases hnone
          subst hempty
          refine ⟨[], by rw [hlines]; rfl, by simp, ?_, ?_⟩
          · intro opening other hopening hother
            cases hother
            rw [hopening] at hunder
            simpa using hunder
          · intro other hother
            rcases List.mem_cons.mp hother with rfl | hmem
            · simpa using hopens
            · exact hout other hmem

/-- Where one entry is rewritten, it is the only one outside its own lines. -/
theorem rewrite_one {lines out : List ℓ} (h : rewrite opens under own none lines = (out, 1)) :
    ∃ before line body after, lines = before ++ line :: (body ++ after) ∧ opens line = true ∧
      NoEntry opens before ∧ (∀ other ∈ body, under line other = true) ∧ NoEntry opens after ∧
        (∀ other, after.head? = some other → under line other = false) ∧
          out = before ++ line :: (own line ++ after) := by
  induction lines generalizing out with
  | nil => cases h
  | cons line lines ih =>
      rw [rewrite, if_neg (by simp)] at h
      split at h
      · rename_i hopens
        rcases hrest : rewrite opens under own (some line) lines with ⟨rest, count⟩
        rw [hrest] at h
        cases h
        obtain ⟨body, hlines, hbody, hhead, hout⟩ := rewrite_zero hrest
        refine ⟨[], line, body, rest, by rw [hlines]; rfl, hopens, by simp [NoEntry], ?_, hout,
          fun other => hhead line other rfl, rfl⟩
        intro other hother
        obtain ⟨_, hline, hunder⟩ := hbody other hother
        cases hline
        exact hunder
      · rename_i hopens
        rcases hrest : rewrite opens under own none lines with ⟨rest, count⟩
        rw [hrest] at h
        cases h
        obtain ⟨before, entry, body, after, hlines, hentry, hbefore, hbody, hafter, hhead, hout⟩ :=
          ih hrest
        refine ⟨line :: before, entry, body, after, by rw [hlines]; rfl, hentry, ?_, hbody, hafter,
          hhead, by rw [hout]; rfl⟩
        intro other hother
        rcases List.mem_cons.mp hother with rfl | hmem
        · simpa using hopens
        · exact hbefore other hmem

/-- What is under an entry that is open is left out, up to what is not. -/
theorem rewrite_body {line : ℓ} {body after : List ℓ} (hbody : ∀ other ∈ body, under line other = true) :
    rewrite opens under own (some line) (body ++ after) =
      rewrite opens under own (some line) after := by
  induction body with
  | nil => rfl
  | cons other body ih =>
      rw [List.cons_append, rewrite, if_pos (by simpa using hbody other List.mem_cons_self)]
      exact ih fun line hline => hbody line (List.mem_cons_of_mem _ hline)

/-- Where no entry opens and none is open, nothing is rewritten. -/
theorem rewrite_of_noEntry {opened : Option ℓ} {lines : List ℓ} (h : NoEntry opens lines)
    (hhead : ∀ line other, opened = some line → lines.head? = some other →
      under line other = false) : rewrite opens under own opened lines = (lines, 0) := by
  induction lines generalizing opened with
  | nil => rfl
  | cons line lines ih =>
      have hnot : (opened.any fun opening => under opening line) = false := by
        cases opened with
        | none => rfl
        | some opening => simpa using hhead opening line rfl rfl
      have hrest := @ih none (fun other hother => h other (List.mem_cons_of_mem _ hother))
        (fun _ _ hnone => absurd hnone (Option.some_ne_none _).symm)
      rw [rewrite, if_neg (by simp [hnot]), if_neg (by simp [h line List.mem_cons_self]), hrest]

/-- Up to the first entry nothing is rewritten, and its own lines are left out. -/
theorem rewrite_append {before body : List ℓ} {line : ℓ} (hbefore : NoEntry opens before)
    (hline : opens line = true) (hbody : ∀ other ∈ body, under line other = true) (after : List ℓ) :
    rewrite opens under own none (before ++ line :: (body ++ after)) =
      (before ++ line :: (own line ++ (rewrite opens under own (some line) after).1),
        (rewrite opens under own (some line) after).2 + 1) := by
  induction before with
  | nil =>
      rw [List.nil_append, rewrite, if_neg (by simp), if_pos hline, rewrite_body hbody]
      rfl
  | cons other before ih =>
      have hother := hbefore other List.mem_cons_self
      rw [List.cons_append, rewrite, if_neg (by simp), if_neg (by simp [hother]),
        ih fun next hnext => hbefore next (List.mem_cons_of_mem _ hnext)]
      rfl

theorem replaced_append {before after : List ℓ} {line : ℓ} (hbefore : NoEntry opens before)
    (hline : opens line = true) :
    replaced opens under (before ++ line :: after) = after.takeWhile (under line) := by
  induction before with
  | nil => simp [replaced, hline]
  | cons other before ih =>
      have hother := hbefore other List.mem_cons_self
      rw [List.cons_append, replaced, if_neg (by simp [hother])]
      exact ih fun line hline => hbefore line (List.mem_cons_of_mem _ hline)

theorem takeWhile_body {line : ℓ} {body after : List ℓ}
    (hbody : ∀ other ∈ body, under line other = true)
    (hhead : ∀ other, after.head? = some other → under line other = false) :
    (body ++ after).takeWhile (under line) = body := by
  induction body with
  | nil =>
      cases after with
      | nil => rfl
      | cons other after => simp [hhead other rfl]
  | cons other body ih =>
      rw [List.cons_append, List.takeWhile_cons, if_pos (hbody other List.mem_cons_self),
        ih fun line hline => hbody line (List.mem_cons_of_mem _ hline)]

theorem entries_append_of_noEntry {before after : List ℓ} (hbefore : NoEntry opens before) :
    entries opens under (before ++ after) = entries opens under after := by
  induction before with
  | nil => rfl
  | cons other before ih =>
      have hother := hbefore other List.mem_cons_self
      rw [List.cons_append, entries, if_neg (by simp [hother])]
      exact ih fun line hline => hbefore line (List.mem_cons_of_mem _ hline)

theorem entries_of_noEntry {lines : List ℓ} (h : NoEntry opens lines) :
    entries opens under lines = [] := by
  have happend : entries opens under (lines ++ []) = entries opens under [] :=
    entries_append_of_noEntry h
  rwa [List.append_nil] at happend

/-- An only entry is what there is to find. -/
theorem entries_of_onlyEntry {lines body : List ℓ} {line : ℓ}
    (h : OnlyEntry opens under lines line body) :
    entries opens under lines = [(line, body)] := by
  obtain ⟨before, after, rfl, hline, hbefore, hbody, hafter, hhead⟩ := h
  have hrest : NoEntry opens (body ++ after) := by
    intro other hother
    rcases List.mem_append.mp hother with hmem | hmem
    · exact (hbody other hmem).2
    · exact hafter other hmem
  rw [entries_append_of_noEntry hbefore, entries, if_pos hline, entries_of_noEntry hrest,
    takeWhile_body (fun other hother => (hbody other hother).1) hhead]

/-- What is rewritten is an only entry, of the lines it was given. -/
theorem onlyEntry_of_rewrite
    (hown : ∀ line, opens line = true → ∀ other ∈ own line,
      under line other = true ∧ opens other = false)
    {lines out : List ℓ} (h : rewrite opens under own none lines = (out, 1)) :
    ∃ line, OnlyEntry opens under out line (own line) := by
  obtain ⟨before, line, body, after, -, hline, hbefore, -, hafter, hhead, hout⟩ := rewrite_one h
  exact ⟨line, before, after, hout, hline, hbefore, hown line hline, hafter, hhead⟩

/-- Rewriting leaves what is outside every entry of a class its own is of. -/
theorem outside_rewrite {class_ : ℓ → Bool}
    (htrans : ∀ first second third, under first second = true → under second third = true →
      under first third = true)
    (hclass : ∀ line, opens line = true → class_ line = true)
    (hown : ∀ line, opens line = true → ∀ other ∈ own line, under line other = true)
    (opened skipping : Option ℓ) (lines : List ℓ)
    (hskipping : ∀ line, skipping = some line → ∃ opening, opened = some opening ∧
      (opening = line ∨ under opening line = true)) :
    outside class_ under opened (rewrite opens under own skipping lines).1 =
      outside class_ under opened lines := by
  have hdrop : ∀ {opening : ℓ} {dropped : List ℓ} (rest : List ℓ),
      (∀ other ∈ dropped, under opening other = true) →
        outside class_ under (some opening) (dropped ++ rest) =
          outside class_ under (some opening) rest := by
    intro opening dropped rest hdropped
    induction dropped with
    | nil => rfl
    | cons other dropped ih =>
        rw [List.cons_append, outside, if_pos (by simpa using hdropped other List.mem_cons_self)]
        exact ih fun line hline => hdropped line (List.mem_cons_of_mem _ hline)
  induction lines generalizing opened skipping with
  | nil => rfl
  | cons line lines ih =>
      rw [rewrite_cons_fst]
      split
      · rename_i hunder
        obtain ⟨skipped, hskipped, hline⟩ := (Option.any_eq_true _ _).mp hunder
        obtain ⟨opening, hopening, hover⟩ := hskipping skipped hskipped
        have hover : under opening line = true := by
          rcases hover with rfl | hover
          · exact hline
          · exact htrans _ _ _ hover hline
        subst hopening
        rw [ih _ _ hskipping, outside, if_pos (by simpa using hover)]
      · split
        · rename_i hopens
          rw [List.cons_append, outside]
          conv => rhs; rw [outside]
          split
          · rename_i hunder
            obtain ⟨opening, hopening, hline⟩ := (Option.any_eq_true _ _).mp hunder
            subst hopening
            rw [hdrop _ fun other hother => htrans _ _ _ hline (hown line hopens other hother)]
            exact ih _ _ fun other hother => ⟨opening, rfl, Or.inr (by cases hother; exact hline)⟩
          · rw [if_pos (hclass line hopens), hdrop _ (hown line hopens)]
            rw [ih _ _ fun other hother => ⟨line, rfl, Or.inl (by cases hother; rfl)⟩]
        · rw [outside]
          conv => rhs; rw [outside]
          split
          · exact ih _ _ fun _ h => by cases h
          · rw [ih _ _ fun _ h => by cases h]

end Rewriting

/-! ## Entries of another kind -/

section Others

variable {opens others : ℓ → Bool} {under : ℓ → ℓ → Bool} {own : ℓ → List ℓ}

/-- No entry comes of rewriting one of another kind. -/
theorem noEntry_of_rewrite (hown : ∀ line, NoEntry opens (own line)) {lines out : List ℓ}
    (h : rewrite others under own none lines = (out, 1)) (hnone : NoEntry opens lines) :
    NoEntry opens out := by
  obtain ⟨before, line, body, after, rfl, -, -, -, -, -, rfl⟩ := rewrite_one h
  intro other hother
  simp only [List.mem_append, List.mem_cons] at hother
  rcases hother with hmem | rfl | hmem | hmem
  · exact hnone other (by simp [hmem])
  · exact hnone other (by simp)
  · exact hown line other hmem
  · exact hnone other (by simp [hmem])

/-- Rewriting one entry leaves one of another kind as it is, unless that one stands among the
lines that are replaced: then it is gone. -/
theorem onlyEntry_of_rewrite_other (hown : ∀ line, NoEntry opens (own line))
    (hdisjoint : ∀ line, opens line = true → others line = false) {lines out body : List ℓ}
    {entry : ℓ} (h : rewrite others under own none lines = (out, 1))
    (hentry : OnlyEntry opens under lines entry body) (hbody : NoEntry others body) :
    (NoEntry opens (replaced others under lines) ∧ OnlyEntry opens under out entry body) ∨
      (¬ NoEntry opens (replaced others under lines) ∧ NoEntry opens out) := by
  obtain ⟨before, line, mine, after, hlines, hline, hbefore, hmine, hafter, hhead, rfl⟩ :=
    rewrite_one h
  obtain ⟨front, back, hlines', hopens, hfront, hown', hback, hhead'⟩ := hentry
  have hreplaced : replaced others under lines = mine := by
    rw [hlines, replaced_append hbefore hline, takeWhile_body hmine hhead]
  rw [hreplaced]
  have hne : line ≠ entry := by
    rintro rfl
    rw [hdisjoint line hopens] at hline
    cases hline
  have hline' : opens line = false := by
    cases hopen : opens line with
    | false => rfl
    | true =>
        rw [hdisjoint line hopen] at hline
        cases hline
  rw [hlines] at hlines'
  rcases List.append_eq_append_iff.mp hlines' with ⟨middle, rfl, hrest⟩ | ⟨middle, rfl, hrest⟩
  · -- The rewritten entry comes first.
    cases middle with
    | nil => exact absurd (List.cons.inj hrest).1 hne
    | cons other middle =>
        obtain ⟨rfl, htail⟩ := List.cons.inj hrest
        rcases List.append_eq_append_iff.mp htail with ⟨gap, rfl, hgap⟩ | ⟨gap, hmine', hgap⟩
        · refine Or.inl ⟨fun other hother => hfront other (by simp [hother]),
            before ++ line :: (own line ++ gap), back, ?_, hopens, ?_, hown', hback, hhead'⟩
          · rw [hgap]
            simp
          · intro other hother
            simp only [List.mem_append, List.mem_cons] at hother
            rcases hother with hmem | rfl | hmem | hmem
            · exact hfront other (by simp [hmem])
            · exact hline'
            · exact hown line other hmem
            · exact hfront other (by simp [hmem])
        · cases gap with
          | nil =>
              simp only [List.nil_append] at hgap
              subst hgap
              rw [List.append_nil] at hmine'
              subst hmine'
              refine Or.inl ⟨fun other hother => hfront other (by simp [hother]),
                before ++ line :: own line, back, by simp, hopens, ?_, hown', hback, hhead'⟩
              intro other hother
              simp only [List.mem_append, List.mem_cons] at hother
              rcases hother with hmem | rfl | hmem
              · exact hfront other (by simp [hmem])
              · exact hline'
              · exact hown line other hmem
          | cons other gap =>
              obtain ⟨rfl, hsame⟩ := List.cons.inj hgap
              refine Or.inr ⟨fun hnone => ?_, fun other hother => ?_⟩
              · rw [hmine'] at hnone
                rw [hnone entry (by simp)] at hopens
                cases hopens
              · simp only [List.mem_append, List.mem_cons] at hother
                rcases hother with hmem | rfl | hmem | hmem
                · exact hfront other (by simp [hmem])
                · exact hline'
                · exact hown line other hmem
                · have hafter' : other ∈ body ++ back := by
                    rw [hsame]
                    exact List.mem_append_right _ hmem
                  rcases List.mem_append.mp hafter' with hbody' | hback'
                  · exact (hown' other hbody').2
                  · exact hback other hback'
  · -- The rewritten entry comes later.
    cases middle with
    | nil => exact absurd (List.cons.inj hrest).1.symm hne
    | cons other middle =>
        obtain ⟨rfl, htail⟩ := List.cons.inj hrest
        have hlater : ∃ gap, middle = body ++ gap ∧ back = gap ++ line :: (mine ++ after) := by
          rcases List.append_eq_append_iff.mp htail with ⟨gap, hmiddle, hback'⟩ | ⟨gap, hbody', hgap⟩
          · exact ⟨gap, hmiddle, hback'⟩
          · cases gap with
            | nil =>
                rw [List.append_nil] at hbody'
                exact ⟨[], by rw [hbody', List.append_nil], hgap.symm⟩
            | cons other gap =>
                obtain ⟨rfl, -⟩ := List.cons.inj hgap
                have hmem : line ∈ body := by
                  rw [hbody']
                  simp
                rw [hbody line hmem] at hline
                cases hline
        obtain ⟨gap, rfl, rfl⟩ := hlater
        refine Or.inl ⟨fun other hother => hback other (by simp [hother]),
          front, gap ++ line :: (own line ++ after), by simp, hopens, hfront, hown', ?_, ?_⟩
        · intro other hother
          simp only [List.mem_append, List.mem_cons] at hother
          rcases hother with hmem | rfl | hmem | hmem
          · exact hback other (by simp [hmem])
          · exact hline'
          · exact hown line other hmem
          · exact hback other (by simp [hmem])
        · intro other hother
          apply hhead' other
          cases gap with
          | nil => exact hother
          | cons first gap => exact hother

end Others

end Blocks
end Library
end SaasFabric
