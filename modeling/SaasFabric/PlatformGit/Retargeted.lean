import SaasFabric.PlatformGit.ArgoLines

/-!
# An Application with one version moved

The walk over an Application's lines reads the same sources before and after a move, but for the
revision that was moved.  So a move shows in one value only, the next move does not see it, and
moving back restores the text.
-/

namespace SaasFabric
namespace PlatformGit
namespace Argo

open Library

/-! ## The line of a revision -/

/-- A key and its value, from the key on. -/
def Scalar.field (scalar : Scalar) : TextLine :=
  scalar.key ++ ':' :: (scalar.gap ++ (scalar.value ++ scalar.suffix))

theorem render_eq (scalar : Scalar) : scalar.render = scalar.lead ++ scalar.field := by
  simp [Scalar.render, Scalar.field]

/-- A scalar that is read off a line as it stands there. -/
structure Scalar.IsRead (scalar : Scalar) : Prop where
  key : ':' ∉ scalar.key
  gap : ∀ c ∈ scalar.gap, isSeparation c = true
  apart : scalar.gap = [] → scalar.value ++ scalar.suffix = []
  start : ∀ c, (scalar.value ++ scalar.suffix).head? = some c → isSeparation c = false
  split : splitValue (scalar.value ++ scalar.suffix) = some (scalar.value, scalar.suffix)

theorem splitValue_append {tail value suffix : TextLine}
    (h : splitValue tail = some (value, suffix)) : value ++ suffix = tail := by
  obtain ⟨more, rfl⟩ := Images.prefix_of_splitValue h
  congr 1
  unfold splitValue at h
  split at h
  · next hnil =>
      cases h
      exact (List.append_eq_nil_iff.mp hnil).2.symm
  · next c body htail =>
      split at h
      · cases h
        rfl
      · split at h
        · unfold splitQuoted at h
          rw [List.span_eq_takeWhile_dropWhile] at h
          have hsplit := @List.takeWhile_append_dropWhile _ (fun d => d != c) body
          have hhead := List.head?_dropWhile_not (fun d => d != c) body
          split at h
          · cases h
          · next inner d rest hspan =>
              obtain ⟨hinner, hrest⟩ := Prod.mk.inj hspan
              rw [hinner, hrest] at hsplit
              rw [hrest] at hhead
              have hd : d = c := by simpa using hhead
              split at h
              · cases h
              · split at h
                · cases h
                  rw [← hsplit, hd] at htail
                  simpa using htail.symm
                · cases h
        · obtain ⟨hvalue, hsuffix⟩ := Prod.mk.inj (Option.some.inj h)
          rw [← hsuffix, hvalue]
          exact List.drop_left

theorem readFrom_eq_some {lead part : TextLine} {scalar : Scalar} :
    Scalar.readFrom lead part = some scalar ↔
      scalar.lead = lead ∧ part = scalar.field ∧ scalar.IsRead := by
  constructor
  · intro h
    unfold Scalar.readFrom at h
    rw [List.span_eq_takeWhile_dropWhile] at h
    have hwhole := @List.takeWhile_append_dropWhile _ (· != ':') part
    have hhead := List.head?_dropWhile_not (· != ':') part
    split at h
    · cases h
    · next key c after hspan =>
        obtain ⟨hkey, hafter⟩ := Prod.mk.inj hspan
        rw [hafter] at hhead
        -- The character the key stops at is the colon.
        have hc : c = ':' := by simpa using hhead
        rw [hkey, hafter, hc] at hwhole
        split at h
        · next hseparated =>
            obtain ⟨⟨value, suffix⟩, hsplit, rfl⟩ := Option.map_eq_some_iff.mp h
            have htail := splitValue_append hsplit
            have hgap := @List.takeWhile_append_dropWhile _ isSeparation after
            refine ⟨rfl, ?_, ?_⟩
            · show part = key ++ ':' :: (after.takeWhile isSeparation ++ (value ++ suffix))
              rw [htail, hgap, hwhole]
            · constructor
              · show ':' ∉ key
                rw [← hkey]
                intro hmem
                have hnot := @List.mem_takeWhile_imp _ (· != ':') _ _ hmem
                simp at hnot
              · exact fun d hd => List.mem_takeWhile_imp hd
              · show after.takeWhile isSeparation = [] → value ++ suffix = []
                intro hnone
                rw [htail]
                cases after with
                | nil => rfl
                | cons d after =>
                    have hd : isSeparation d = true := by simpa using hseparated
                    rw [List.takeWhile_cons_of_pos hd] at hnone
                    cases hnone
              · show ∀ d, (value ++ suffix).head? = some d → isSeparation d = false
                intro d hd
                rw [htail] at hd
                have hnot := List.head?_dropWhile_not isSeparation after
                rw [hd] at hnot
                simpa using hnot
              · show splitValue (value ++ suffix) = some (value, suffix)
                rw [htail]
                exact hsplit
        · cases h
  · rintro ⟨rfl, rfl, hread⟩
    have hkey : ∀ c ∈ scalar.key, (c != ':') = true := by
      intro c hc
      rw [bne_iff_ne]
      rintro rfl
      exact hread.key hc
    -- The gap ends where the value starts, so it is found again.
    have hstart : ∀ {tail : TextLine}, (∀ c, tail.head? = some c → isSeparation c = false) →
        tail.takeWhile isSeparation = [] ∧ tail.dropWhile isSeparation = tail := by
      intro tail htail
      cases tail with
      | nil => exact ⟨rfl, rfl⟩
      | cons c tail =>
          have hc := htail c rfl
          exact ⟨List.takeWhile_cons_of_neg (by simp [hc]), List.dropWhile_cons_of_neg (by simp [hc])⟩
    obtain ⟨htake, hdrop⟩ := hstart hread.start
    have hseparated : ((scalar.gap ++ (scalar.value ++ scalar.suffix)).isEmpty ||
        (scalar.gap ++ (scalar.value ++ scalar.suffix)).head?.any isSeparation) = true := by
      cases hgap : scalar.gap with
      | nil => simp [hread.apart hgap]
      | cons c gap => simp [hread.gap c (by rw [hgap]; simp)]
    unfold Scalar.readFrom Scalar.field
    rw [List.span_eq_takeWhile_dropWhile, List.takeWhile_append_of_pos hkey,
      List.dropWhile_append_of_pos hkey, List.takeWhile_cons_of_neg (by simp),
      List.dropWhile_cons_of_neg (by simp), List.append_nil]
    dsimp only
    rw [if_pos hseparated, List.takeWhile_append_of_pos hread.gap,
      List.dropWhile_append_of_pos hread.gap, htake, hdrop, hread.split, List.append_nil]
    rfl

/-- The line a revision stands on, on its own or with a dash before it. -/
structure IsRevision (line : Line) (dash : TextLine) (revision : Scalar) : Prop where
  whole : IsWhole line
  marked : dash = [] ∨ ∃ pads, dash = '-' :: List.replicate pads ' '
  lead : revision.lead = line.spaces ++ dash
  key : revision.key = "targetRevision".toList
  content : line.content = revision.render
  isRead : revision.IsRead

theorem IsWhole.spaces_blank {line : Line} (h : IsWhole line) : ∀ c ∈ line.spaces, c = ' ' := by
  intro c hc
  rw [h.spaces] at hc
  exact of_decide_eq_true (@List.mem_takeWhile_imp _ (· = ' ') _ _ hc)

theorem read_of_suffix {line : Line} {lead part : TextLine} (h : line.content = lead ++ part) :
    Scalar.read line part = Scalar.readFrom lead part := by
  unfold Scalar.read
  have hlength : line.content.length - part.length = lead.length := by
    rw [h, List.length_append]
    omega
  rw [if_pos (by rw [h]; exact List.isSuffixOf_iff_suffix.mpr (List.suffix_append _ _)), hlength, h,
    List.take_left]

theorem isRevision_of_rest {line : Line} (hline : IsWhole line) {revision : Scalar}
    (hkey : revision.key = "targetRevision".toList)
    (h : Scalar.read line line.rest = some revision) : IsRevision line [] revision := by
  rw [read_of_suffix hline.content] at h
  obtain ⟨hlead, hpart, hread⟩ := readFrom_eq_some.mp h
  refine ⟨hline, .inl rfl, by rw [hlead, List.append_nil], hkey, ?_, hread⟩
  rw [render_eq, hlead, ← hpart]
  exact hline.content

/-- The key beside a dash, and what stands before it. -/
theorem content_of_afterDash {line : Line} (hline : IsWhole line) {column : Nat} {part : TextLine}
    (h : line.afterDash = some (column, part)) :
    ∃ pads, line.content = line.spaces ++ '-' :: List.replicate pads ' ' ++ part ∧
      part.head? ≠ some ' ' ∧ column = line.indent + (pads + 1) := by
  unfold Line.afterDash at h
  split at h
  · next after hrest =>
      dsimp only at h
      split at h
      · cases h
      · obtain ⟨hcolumn, hpart⟩ := Prod.mk.inj (Option.some.inj h)
        have hafter := @List.takeWhile_append_dropWhile _ (· = ' ') after
        have hpads : after.takeWhile (· = ' ') =
            List.replicate (after.takeWhile (· = ' ')).length ' ' := by
          rw [List.eq_replicate_iff]
          refine ⟨rfl, fun c hc => ?_⟩
          exact of_decide_eq_true (@List.mem_takeWhile_imp _ (· = ' ') _ _ hc)
        have hcontent : line.content = line.spaces ++
            '-' :: List.replicate (after.takeWhile (· = ' ')).length ' ' ++ part := by
          rw [hline.content, hrest, ← hpads, ← hpart, List.append_assoc, List.cons_append, hafter]
        refine ⟨_, hcontent, ?_, ?_⟩
        · intro hhead
          have hnot := List.head?_dropWhile_not (· = ' ') after
          rw [hpart, hhead] at hnot
          simp at hnot
        · rw [hpart, hcontent] at hcolumn
          unfold Line.indent
          rw [← hcolumn]
          simp only [List.length_append, List.length_cons, List.length_replicate]
          omega
  · cases h

theorem isRevision_of_afterDash {line : Line} (hline : IsWhole line) {revision : Scalar}
    {column : Nat} {part : TextLine} (hkey : revision.key = "targetRevision".toList)
    (hafter : line.afterDash = some (column, part)) (h : Scalar.read line part = some revision) :
    ∃ pads, IsRevision line ('-' :: List.replicate pads ' ') revision := by
  obtain ⟨pads, hcontent, -, -⟩ := content_of_afterDash hline hafter
  rw [read_of_suffix hcontent] at h
  obtain ⟨hlead, hpart, hread⟩ := readFrom_eq_some.mp h
  refine ⟨pads, hline, .inr ⟨pads, rfl⟩, hlead, hkey, ?_, hread⟩
  rw [render_eq, hlead, ← hpart]
  exact hcontent

namespace IsRevision

variable {line : Line} {dash : TextLine} {revision : Scalar}

theorem field_eq (h : IsRevision line dash revision) :
    ∃ more, revision.field = 't' :: more := by
  unfold Scalar.field
  rw [h.key]
  exact ⟨_, rfl⟩

theorem rest_eq (h : IsRevision line dash revision) : line.rest = dash ++ revision.field := by
  have hcontent := h.whole.content
  rw [h.content, render_eq, h.lead, List.append_assoc] at hcontent
  exact (List.append_cancel_left hcontent).symm

/-- The first sign of the line, and the one behind it. -/
theorem rest_cases (h : IsRevision line dash revision) :
    (∃ more, line.rest = 't' :: more) ∨ ∃ c more, line.rest = '-' :: c :: more ∧
      (c = ' ' ∨ c = 't') := by
  obtain ⟨more, hfield⟩ := h.field_eq
  rw [h.rest_eq, hfield]
  rcases h.marked with rfl | ⟨pads, rfl⟩
  · exact .inl ⟨more, rfl⟩
  · cases pads with
    | zero => exact .inr ⟨'t', more, rfl, .inr rfl⟩
    | succ pads => exact .inr ⟨' ', _, rfl, .inl rfl⟩

theorem isBlank_eq (h : IsRevision line dash revision) : line.isBlank = false := by
  unfold Line.isBlank
  rcases h.rest_cases with ⟨more, hrest⟩ | ⟨c, more, hrest, -⟩
  · rw [hrest, List.dropWhile_cons_of_neg (by decide)]
    rfl
  · rw [hrest, List.dropWhile_cons_of_neg (by decide)]
    rfl

theorem isSignificant_eq (h : IsRevision line dash revision) : line.isSignificant = true := by
  unfold Line.isSignificant
  rcases h.rest_cases with ⟨more, hrest⟩ | ⟨c, more, hrest, -⟩
  · rw [hrest, List.dropWhile_cons_of_neg (by decide)]
    rfl
  · rw [hrest, List.dropWhile_cons_of_neg (by decide)]
    rfl

theorem isTabIndented_eq (h : IsRevision line dash revision) : line.isTabIndented = false := by
  unfold Line.isTabIndented
  rcases h.rest_cases with ⟨more, hrest⟩ | ⟨c, more, hrest, -⟩
  · rw [hrest]
    rfl
  · rw [hrest]
    rfl

theorem startsADocument_eq (h : IsRevision line dash revision) :
    line.startsADocument = false := by
  unfold Line.startsADocument
  rcases h.rest_cases with ⟨more, hrest⟩ | ⟨c, more, hrest, rfl | rfl⟩
  · rw [hrest]
    exact Bool.and_false _
  · rw [hrest]
    exact Bool.and_false _
  · rw [hrest]
    exact Bool.and_false _

theorem opensEntry_eq (h : IsRevision line dash revision) :
    line.opensEntry = decide (1 < dash.length) := by
  obtain ⟨more, hfield⟩ := h.field_eq
  unfold Line.opensEntry
  rw [h.rest_eq, hfield]
  rcases h.marked with rfl | ⟨pads, rfl⟩
  · rfl
  · cases pads with
    | zero => rfl
    | succ pads => simp [List.replicate_succ]

/-- The key beside the dash, where there is one, is the revision's. -/
theorem afterDash_eq (h : IsRevision line dash revision) :
    line.afterDash =
      if dash = [] then none else some (line.indent + dash.length, revision.field) := by
  obtain ⟨more, hfield⟩ := h.field_eq
  rcases h.marked with rfl | ⟨pads, rfl⟩
  · unfold Line.afterDash
    rw [h.rest_eq, hfield]
    rfl
  · have hdrop : (List.replicate pads ' ' ++ revision.field).dropWhile (· = ' ') =
        revision.field := by
      rw [List.dropWhile_append_of_pos fun c hc => by simp [List.eq_of_mem_replicate hc], hfield,
        List.dropWhile_cons_of_neg (by decide)]
    have hlength : line.content.length - revision.field.length = line.indent + (pads + 1) := by
      rw [h.content, render_eq, h.lead]
      unfold Line.indent
      simp only [List.length_append, List.length_cons, List.length_replicate]
      omega
    unfold Line.afterDash
    rw [h.rest_eq, List.cons_append]
    show (if (List.dropWhile (· = ' ') (List.replicate pads ' ' ++ revision.field)).isEmpty = true
      then none else some (_, _)) = _
    rw [hdrop, hlength, if_neg (by rw [hfield]; simp), if_neg (by simp)]
    simp

theorem read_field (h : IsRevision line dash revision) :
    Scalar.read line revision.field = some revision := by
  have hcontent := h.content
  rw [render_eq] at hcontent
  rw [read_of_suffix hcontent]
  exact readFrom_eq_some.mpr ⟨rfl, rfl, h.isRead⟩

/-- The line read from its first sign on: the dash belongs to the key. -/
theorem read_rest (h : IsRevision line dash revision) :
    Scalar.read line line.rest =
      some { revision with lead := line.spaces, key := dash ++ revision.key } := by
  rw [read_of_suffix h.whole.content]
  refine readFrom_eq_some.mpr ⟨rfl, ?_, ?_⟩
  · rw [h.rest_eq]
    simp [Scalar.field]
  · refine { h.isRead with key := ?_ }
    intro hmem
    rcases List.mem_append.mp hmem with hdash | hkey
    · rcases h.marked with rfl | ⟨pads, rfl⟩
      · cases hdash
      · rcases List.mem_cons.mp hdash with heq | hblank
        · revert heq
          decide
        · have heq := List.eq_of_mem_replicate hblank
          revert heq
          decide
    · exact h.isRead.key hkey

theorem key_ne (h : IsRevision line dash revision) {name : String}
    (hhead : name.toList.head? ≠ some '-') (hname : name.toList ≠ "targetRevision".toList) :
    dash ++ revision.key ≠ name.toList := by
  intro hkey
  rcases h.marked with rfl | ⟨pads, rfl⟩
  · exact hname (by rw [← hkey, h.key]; rfl)
  · exact hhead (by rw [← hkey]; rfl)

theorem opensKey_eq (h : IsRevision line dash revision) {name : String}
    (hhead : name.toList.head? ≠ some '-') (hname : name.toList ≠ "targetRevision".toList) :
    opensKey line name = .ok false := by
  unfold opensKey
  rw [h.read_rest]
  dsimp only
  rw [if_pos (h.key_ne hhead hname)]

/-- The line opens no block scalar where the value does not. -/
theorem opensBlock_eq (h : IsRevision line dash revision)
    (hvalue : revision.opensABlock = false) : Walk.opensBlock line = none := by
  have hsame : Scalar.opensABlock { revision with
      lead := line.spaces, key := dash ++ revision.key } = false := hvalue
  unfold Walk.opensBlock
  by_cases hdash : dash = []
  · rw [h.afterDash_eq, if_pos hdash]
    show (if (Scalar.read line line.rest).any Scalar.opensABlock = true then _ else _) = _
    rw [h.read_rest, Option.any_some, hsame]
    rfl
  · rw [h.afterDash_eq, if_neg hdash]
    show (if (Scalar.read line revision.field).any Scalar.opensABlock = true then _ else _) = _
    rw [h.read_field, Option.any_some, hvalue]
    rfl

/-- Where the walk stands after the line: as far as it is indented, and whether it opens an
entry, and no other key matters. -/
theorem observe_eq (h : IsRevision line dash revision) {other : Line} {moved : Scalar}
    (hother : IsRevision other dash moved) (hindent : other.indent = line.indent)
    (position : Position) : position.observe other = position.observe line := by
  have hspec : opensKey other "spec" = opensKey line "spec" := by
    rw [h.opensKey_eq (by decide) (by decide), hother.opensKey_eq (by decide) (by decide)]
  have hsources : opensKey other "sources" = opensKey line "sources" := by
    rw [h.opensKey_eq (by decide) (by decide), hother.opensKey_eq (by decide) (by decide)]
  have hentry : other.opensEntry = line.opensEntry := by
    rw [h.opensEntry_eq, hother.opensEntry_eq]
  have houtside : Position.observeOutside other = Position.observeOutside line := by
    unfold Position.observeOutside
    rw [hindent, hspec]
  have hwithin : ∀ children, Position.observeSpec children other =
      Position.observeSpec children line := by
    intro children
    unfold Position.observeSpec
    rw [hindent, hsources, houtside]
  unfold Position.observe
  rw [h.startsADocument_eq, hother.startsADocument_eq]
  cases position with
  | outside => exact houtside
  | spec children => exact hwithin children
  | sources children entries =>
      show Position.observeSources children entries other =
        Position.observeSources children entries line
      unfold Position.observeSources
      rw [hindent, hentry, hwithin]

end IsRevision

/-! ## The walk, before and after a move -/

/-- What is read off a line, where the value on one line is another. -/
def movedAt (pinned : Nat) (value : TextLine) (target : Nat × Scalar) : Nat × Scalar :=
  if target.1 = pinned then (target.1, { target.2 with value }) else target

/-- An entry, its revision read as `change` has it. -/
def Entry.moved (change : Nat × Scalar → Nat × Scalar) (entry : Entry) : Entry :=
  { entry with
    target := { first := entry.target.first.map change, count := entry.target.count } }

/-- A walk, every entry's revision read as `change` has it. -/
def Walk.moved (change : Nat × Scalar → Nat × Scalar) (walk : Walk) : Walk :=
  { walk with entries := walk.entries.map (Entry.moved change) }

theorem movedAt_of_ne {pinned : Nat} {value : TextLine} {index : Nat} {scalar : Scalar}
    (h : index ≠ pinned) : movedAt pinned value (index, scalar) = (index, scalar) :=
  if_neg h

theorem movedAt_self (pinned : Nat) (value : TextLine) (scalar : Scalar) :
    movedAt pinned value (pinned, scalar) = (pinned, { scalar with value }) :=
  if_pos rfl

theorem moved_target (change : Nat × Scalar → Nat × Scalar) (entry : Entry)
    (target : Nat × Scalar) :
    Entry.moved change { entry with target := entry.target.record target } =
      { entry.moved change with target := (entry.moved change).target.record (change target) } := by
  unfold Entry.moved Seen.record
  cases entry.target.first <;> rfl

/-- A line that is not moved says the same. -/
theorem record_moved {pinned index : Nat} {value : TextLine} (hindex : index ≠ pinned)
    (entry : Entry) (line : Line) (part : TextLine) :
    (entry.moved (movedAt pinned value)).record index line part =
      (entry.record index line part).moved (movedAt pinned value) := by
  unfold Entry.record
  cases Scalar.read line part with
  | none => rfl
  | some scalar =>
      dsimp only
      split
      · rfl
      · split
        · rfl
        · split
          · rw [moved_target, movedAt_of_ne hindex]
          · rfl

/-- An entry under a line that may be one of its own keys. -/
theorem observe_entry (entry : Entry) (index : Nat) (line : Line) :
    entry.observe index line =
      if (line.opensEntry || decide (line.indent ≤ entry.column)) = true then entry
      else if line.indent = entry.keys.getD line.indent then
        Entry.record { entry with keys := some (entry.keys.getD line.indent) } index line line.rest
      else { entry with keys := some (entry.keys.getD line.indent) } := rfl

/-- What the walk does at a line with the entries it has, the line or the entries moved. -/
structure Alike (change : Nat × Scalar → Nat × Scalar) (index : Nat) (line other : Line) :
    Prop where
  opened : Entry.opened index other = (Entry.opened index line).moved change
  observed : ∀ entry : Entry,
    (entry.moved change).observe index other = (entry.observe index line).moved change

theorem alike_of_ne {pinned index : Nat} {value : TextLine} (hindex : index ≠ pinned)
    (line : Line) : Alike (movedAt pinned value) index line line := by
  constructor
  · unfold Entry.opened
    dsimp only
    cases line.afterDash with
    | none => rfl
    | some first =>
        exact record_moved hindex ⟨line.indent, some first.1, .none, .none, .none⟩ line first.2
  · intro entry
    rw [observe_entry, observe_entry]
    by_cases hunder : (line.opensEntry || decide (line.indent ≤ entry.column)) = true
    · rw [if_pos hunder]
      exact if_pos hunder
    · rw [if_neg hunder]
      refine (if_neg hunder).trans ?_
      by_cases hkeys : line.indent = entry.keys.getD line.indent
      · rw [if_pos hkeys]
        refine (if_pos hkeys).trans ?_
        exact record_moved hindex { entry with keys := some (entry.keys.getD line.indent) } line
          line.rest
      · rw [if_neg hkeys]
        exact if_neg hkeys

theorem modifyLast_map {α : Entry → Entry} {first second : Entry → Entry}
    (h : ∀ entry, second (α entry) = α (first entry)) (entries : List Entry) :
    Walk.modifyLast second (entries.map α) = (Walk.modifyLast first entries).map α := by
  induction entries with
  | nil => rfl
  | cons entry rest ih =>
      cases rest with
      | nil => simp [Walk.modifyLast, h]
      | cons next rest =>
          show α entry :: Walk.modifyLast second ((next :: rest).map α) = _
          rw [ih]
          rfl

theorem Alike.enter {change : Nat × Scalar → Nat × Scalar} {index : Nat} {line other : Line}
    (h : Alike change index line other) (walk : Walk) (role : Role) :
    (walk.moved change).enter index other role = (walk.enter index line role).moved change := by
  cases role with
  | opens =>
      unfold Walk.enter Walk.moved
      dsimp only
      rw [h.opened, List.map_append, List.map_singleton]
  | within =>
      unfold Walk.enter
      dsimp only
      by_cases hopen : walk.isOpen = true
      · rw [if_pos hopen]
        refine (if_pos hopen).trans ?_
        unfold Walk.moved
        dsimp only
        rw [modifyLast_map h.observed]
      · rw [if_neg hopen]
        exact if_neg hopen
  | elsewhere => rfl

/-- A step over a line that is not moved. -/
theorem step_of_ne {pinned index : Nat} {value : TextLine} (hindex : index ≠ pinned)
    (walk : Walk) (line : Line) :
    (walk.moved (movedAt pinned value)).step (index, line) =
      (walk.step (index, line)).map (Walk.moved (movedAt pinned value)) := by
  have hstep : ∀ walk : Walk, walk.step (index, line) =
      if (walk.block.any fun header => line.isBlank || header < line.indent) = true then .ok walk
      else if (!line.isSignificant) = true then .ok { walk with block := none }
      else if line.isTabIndented = true then
        .error (s!"is indented with a tab on line {index + 1}, and a tab's width is nobody's to " ++
          "assume, so how deep that line sits cannot be said")
      else (walk.position.observe line).map fun seen =>
        { Walk.enter { walk with block := none, position := seen.1 } index line seen.2 with
          block := Walk.opensBlock line } := by
    intro walk
    unfold Walk.step
    dsimp only
    cases walk.position.observe line <;> rfl
  rw [hstep, hstep]
  by_cases hblock : (walk.block.any fun header => line.isBlank || header < line.indent) = true
  · rw [if_pos hblock]
    exact if_pos hblock
  · rw [if_neg hblock]
    refine (if_neg hblock).trans ?_
    split
    · rfl
    · split
      · rfl
      · show (walk.position.observe line).map _ = _
        cases walk.position.observe line with
        | error error => rfl
        | ok seen =>
            have henter : Walk.enter (Walk.moved (movedAt pinned value)
                { walk with block := none, position := seen.1 }) index line seen.2 = _ :=
              (alike_of_ne hindex line).enter _ seen.2
            exact congrArg (fun next : Walk => Except.ok
              { next with block := Walk.opensBlock line }) henter

namespace IsRevision

variable {line other : Line} {dash value : TextLine} {revision : Scalar} {index : Nat}

theorem record_field (h : IsRevision line dash revision) (entry : Entry) :
    entry.record index line revision.field =
      { entry with target := entry.target.record (index, revision) } := by
  unfold Entry.record
  rw [h.read_field]
  dsimp only
  rw [h.key, if_neg (by decide), if_neg (by decide), if_pos rfl]

theorem record_rest (h : IsRevision line dash revision) (entry : Entry) :
    entry.record index line line.rest =
      if dash = [] then { entry with target := entry.target.record (index, revision) }
      else entry := by
  by_cases hdash : dash = []
  · have hrest := h.rest_eq
    rw [hdash, List.nil_append] at hrest
    rw [if_pos hdash, hrest, h.record_field]
  · have hkey : ∀ name : String, name.toList.head? ≠ some '-' →
        dash ++ revision.key ≠ name.toList := by
      intro name hhead heq
      rcases h.marked with hnil | ⟨pads, rfl⟩
      · exact hdash hnil
      · exact hhead (by rw [← heq]; rfl)
    unfold Entry.record
    rw [h.read_rest, if_neg hdash]
    dsimp only
    rw [if_neg (hkey "repoURL" (by decide)), if_neg (hkey "chart" (by decide)),
      if_neg (hkey "targetRevision" (by decide))]

theorem indent_eq (h : IsRevision line dash revision)
    (hother : IsRevision other dash { revision with value }) : other.indent = line.indent := by
  have hlead := hother.lead
  rw [show ({ revision with value } : Scalar).lead = revision.lead from rfl, h.lead] at hlead
  unfold Line.indent
  rw [List.append_cancel_right hlead]

/-- The moved line says the moved revision, and nothing else of its own. -/
theorem alike (h : IsRevision line dash revision)
    (hother : IsRevision other dash { revision with value }) :
    Alike (movedAt index value) index line other := by
  have hindent := h.indent_eq hother
  have htarget : ∀ entry : Entry,
      Entry.moved (movedAt index value)
          { entry with target := entry.target.record (index, revision) } =
        { entry.moved (movedAt index value) with
          target := (entry.moved (movedAt index value)).target.record
            (index, { revision with value }) } := by
    intro entry
    rw [moved_target, movedAt_self]
  constructor
  · unfold Entry.opened
    rw [h.afterDash_eq, hother.afterDash_eq, hindent]
    by_cases hdash : dash = []
    · rw [if_pos hdash, if_pos hdash]
      rfl
    · rw [if_neg hdash, if_neg hdash]
      dsimp only
      rw [h.record_field, hother.record_field, htarget]
      rfl
  · intro entry
    rw [observe_entry, observe_entry, h.opensEntry_eq, hother.opensEntry_eq, hindent,
      h.record_rest, hother.record_rest]
    by_cases hunder : (decide (1 < dash.length) || decide (line.indent ≤ entry.column)) = true
    · rw [if_pos hunder]
      exact if_pos hunder
    · rw [if_neg hunder]
      refine (if_neg hunder).trans ?_
      by_cases hkeys : line.indent = entry.keys.getD line.indent
      · rw [if_pos hkeys]
        refine (if_pos hkeys).trans ?_
        by_cases hdash : dash = []
        · rw [if_pos hdash, if_pos hdash, htarget]
          rfl
        · rw [if_neg hdash, if_neg hdash]
          rfl
      · rw [if_neg hkeys]
        exact if_neg hkeys

theorem step_eq (h : IsRevision line dash revision) (hvalue : revision.opensABlock = false)
    (walk : Walk) :
    walk.step (index, line) =
      if walk.block.any fun header => header < line.indent then .ok walk
      else (walk.position.observe line).map fun seen =>
        { Walk.enter { walk with position := seen.1, block := none } index line seen.2 with
          block := none } := by
  unfold Walk.step
  dsimp only
  rw [h.isBlank_eq, h.isSignificant_eq, h.isTabIndented_eq, h.opensBlock_eq hvalue]
  simp only [Bool.false_or]
  by_cases hblock : (walk.block.any fun header => decide (header < line.indent)) = true
  · rw [if_pos hblock, if_pos hblock]
  · rw [if_neg hblock, if_neg hblock, if_neg (by simp), if_neg (by simp)]
    cases walk.position.observe line <;> rfl

/-- A step over the moved line. -/
theorem step_moved (h : IsRevision line dash revision)
    (hother : IsRevision other dash { revision with value })
    (hvalue : revision.opensABlock = false)
    (hmoved : ({ revision with value } : Scalar).opensABlock = false) (walk : Walk) :
    (walk.moved (movedAt index value)).step (index, other) =
      (walk.step (index, line)).map (Walk.moved (movedAt index value)) := by
  have hindent := h.indent_eq hother
  rw [h.step_eq hvalue, hother.step_eq hmoved, hindent, h.observe_eq hother hindent]
  by_cases hblock : (walk.block.any fun header => decide (header < line.indent)) = true
  · rw [if_pos hblock]
    exact if_pos hblock
  · rw [if_neg hblock]
    refine (if_neg hblock).trans ?_
    show (walk.position.observe line).map _ = _
    cases walk.position.observe line with
    | error error => rfl
    | ok seen =>
        have henter : Walk.enter (Walk.moved (movedAt index value)
            { walk with position := seen.1, block := none }) index other seen.2 = _ :=
          (h.alike hother).enter _ seen.2
        exact congrArg (fun next : Walk => Except.ok { next with block := none }) henter

end IsRevision

/-! ## Where a revision was read -/

/-- Entries whose revisions were read in order, each off a line that `Reads` it. -/
structure Sourced (Reads : Nat × Scalar → Prop) (index : Nat) (entries : List Entry) : Prop where
  reads : ∀ entry ∈ entries, ∀ target, entry.target.first = some target →
    target.1 < index ∧ Reads target
  ordered : entries.Pairwise fun first second => ∀ target other,
    first.target.first = some target → second.target.first = some other → target.1 < other.1

theorem record_target (entry : Entry) (index : Nat) (line : Line) (part : TextLine) :
    (entry.record index line part).target.first = entry.target.first ∨
      entry.target.first = none ∧ ∃ scalar, Scalar.read line part = some scalar ∧
        scalar.key = "targetRevision".toList ∧
          (entry.record index line part).target.first = some (index, scalar) := by
  unfold Entry.record
  cases hread : Scalar.read line part with
  | none => exact .inl rfl
  | some scalar =>
      dsimp only
      split
      · exact .inl rfl
      · split
        · exact .inl rfl
        · split
          · next hkey =>
              cases hfirst : entry.target.first with
              | some target => exact .inl (by simp [Seen.record, hfirst])
              | none => exact .inr ⟨rfl, scalar, rfl, hkey, by simp [Seen.record, hfirst]⟩
          · exact .inl rfl

/-- What a line that is read can say of a revision. -/
def SaysHere (index : Nat) (line : Line) (target : Nat × Scalar) : Prop :=
  target.1 = index ∧ ∃ dash, IsRevision line dash target.2

theorem opened_target {index : Nat} {line : Line} (hline : IsWhole line) {target : Nat × Scalar}
    (h : (Entry.opened index line).target.first = some target) : SaysHere index line target := by
  unfold Entry.opened at h
  dsimp only at h
  split at h
  · cases h
  · next column first hafter =>
      rcases record_target _ index line first with hsame | ⟨-, scalar, hread, hkey, hfirst⟩
      · rw [hsame] at h
        cases h
      · rw [hfirst] at h
        cases h
        obtain ⟨pads, hrevision⟩ := isRevision_of_afterDash hline hkey hafter hread
        exact ⟨rfl, _, hrevision⟩

theorem observe_target {index : Nat} {line : Line} (hline : IsWhole line) (entry : Entry) :
    (entry.observe index line).target.first = entry.target.first ∨
      entry.target.first = none ∧ ∀ target,
        (entry.observe index line).target.first = some target → SaysHere index line target := by
  rw [observe_entry]
  split
  · exact .inl rfl
  · split
    · rcases record_target { entry with keys := some (entry.keys.getD line.indent) } index line
        line.rest with hsame | ⟨hnone, scalar, hread, hkey, hfirst⟩
      · exact .inl hsame
      · refine .inr ⟨hnone, fun target htarget => ?_⟩
        rw [hfirst] at htarget
        cases htarget
        exact ⟨rfl, _, isRevision_of_rest hline hkey hread⟩
    · exact .inl rfl

theorem modifyLast_concat (f : Entry → Entry) (front : List Entry) (last : Entry) :
    Walk.modifyLast f (front ++ [last]) = front ++ [f last] := by
  induction front with
  | nil => rfl
  | cons entry front ih =>
      cases hrest : front ++ [last] with
      | nil => simp at hrest
      | cons next rest =>
          rw [List.cons_append, hrest]
          show entry :: Walk.modifyLast f (next :: rest) = _
          rw [← hrest, ih]
          rfl

/-- What one line does to the entries. -/
theorem step_entries {walk next : Walk} {index : Nat} {line : Line}
    (h : walk.step (index, line) = .ok next) :
    next.entries = walk.entries ∨ next.entries = walk.entries ++ [Entry.opened index line] ∨
      next.entries = Walk.modifyLast (fun entry => entry.observe index line) walk.entries := by
  unfold Walk.step at h
  dsimp only at h
  split at h
  · cases h
    exact .inl rfl
  · split at h
    · cases h
      exact .inl rfl
    · split at h
      · cases h
      · obtain ⟨⟨position, role⟩, -, hnext⟩ := bind_eq_ok.mp h
        cases hnext
        cases role with
        | opens => exact .inr (.inl rfl)
        | elsewhere => exact .inl rfl
        | within =>
            unfold Walk.enter
            dsimp only
            split
            · exact .inr (.inr rfl)
            · exact .inl rfl

/-- One more line: the revision it says is the last that was read. -/
theorem Sourced.step {Reads : Nat × Scalar → Prop} {walk next : Walk} {index : Nat} {line : Line}
    (h : Sourced Reads index walk.entries) (hline : IsWhole line)
    (hreads : ∀ target, SaysHere index line target → Reads target)
    (hstep : walk.step (index, line) = .ok next) : Sourced Reads (index + 1) next.entries := by
  have hlater : ∀ entry ∈ walk.entries, ∀ target, entry.target.first = some target →
      target.1 < index + 1 ∧ Reads target := fun entry hentry target htarget =>
    (h.reads entry hentry target htarget).imp_left Nat.lt_succ_of_lt
  have hhere : ∀ target, SaysHere index line target → target.1 < index + 1 ∧ Reads target :=
    fun target hclaims => ⟨by rw [hclaims.1]; exact Nat.lt_succ_self _, hreads target hclaims⟩
  rcases step_entries hstep with hsame | hopened | hobserved
  · rw [hsame]
    exact ⟨hlater, h.ordered⟩
  · rw [hopened]
    constructor
    · intro entry hentry target htarget
      rcases List.mem_append.mp hentry with hold | hnew
      · exact hlater entry hold target htarget
      · rw [List.mem_singleton.mp hnew] at htarget
        exact hhere target (opened_target hline htarget)
    · rw [List.pairwise_append]
      refine ⟨h.ordered, List.pairwise_singleton _ _, ?_⟩
      intro entry hentry new hnew target other htarget hother
      rw [List.mem_singleton.mp hnew] at hother
      rw [(opened_target hline hother).1]
      exact (h.reads entry hentry target htarget).1
  · rcases List.eq_nil_or_concat walk.entries with hnil | ⟨front, last, hentries⟩
    · rw [hobserved, hnil]
      exact ⟨fun _ hentry => (nomatch hentry), List.Pairwise.nil⟩
    · rw [List.concat_eq_append] at hentries
      rw [hobserved, hentries, modifyLast_concat]
      have hlast := @observe_target index line hline last
      constructor
      · intro entry hentry target htarget
        rcases List.mem_append.mp hentry with hold | hnew
        · exact hlater entry (by rw [hentries]; simp [hold]) target htarget
        · rw [List.mem_singleton.mp hnew] at htarget
          rcases hlast with hsame | ⟨-, hclaims⟩
          · rw [hsame] at htarget
            exact hlater last (by rw [hentries]; simp) target htarget
          · exact hhere target (hclaims target htarget)
      · have hordered := h.ordered
        rw [hentries, List.pairwise_append] at hordered
        rw [List.pairwise_append]
        refine ⟨hordered.1, List.pairwise_singleton _ _, ?_⟩
        intro entry hentry new hnew target other htarget hother
        rw [List.mem_singleton.mp hnew] at hother
        rcases hlast with hsame | ⟨-, hclaims⟩
        · rw [hsame] at hother
          exact hordered.2.2 entry hentry last (by simp) target other htarget hother
        · rw [(hclaims other hother).1]
          exact (h.reads entry (by rw [hentries]; simp [hentry]) target htarget).1

theorem sourced_start (Reads : Nat × Scalar → Prop) : Sourced Reads 0 Walk.start.entries :=
  ⟨fun _ hentry => (nomatch hentry), List.Pairwise.nil⟩

/-- The revisions a walk read: each off its own line, in the order of the entries. -/
theorem sourced_of_run {lines : List Line} {index : Nat} {Reads : Nat × Scalar → Prop}
    (hlines : ∀ line ∈ lines, IsWhole line)
    (hreads : ∀ item ∈ numbered index lines, ∀ target, SaysHere item.1 item.2 target → Reads target)
    {walk final : Walk} (h : Sourced Reads index walk.entries)
    (hrun : (numbered index lines).foldlM Walk.step walk = .ok final) :
    Sourced Reads (index + lines.length) final.entries := by
  induction lines generalizing index walk with
  | nil =>
      cases hrun
      exact h
  | cons line rest ih =>
      unfold numbered at hrun hreads
      rw [List.foldlM_cons] at hrun
      obtain ⟨next, hstep, hrest⟩ := bind_eq_ok.mp hrun
      have hnext := h.step (hlines line List.mem_cons_self) (hreads _ List.mem_cons_self) hstep
      have hfinal := ih (fun other hother => hlines other (List.mem_cons_of_mem _ hother))
        (fun item hitem => hreads item (List.mem_cons_of_mem _ hitem)) hnext hrest
      rw [List.length_cons, ← Nat.add_assoc, Nat.add_right_comm]
      exact hfinal

/-! ## A move -/

/-- The revision of the one source that names a chart, as a text declares it. -/
def declaredRevision (text repository chart : String) : Except Refusal (Nat × Scalar) := do
  revisionOf (← collectSources (Line.split text)) repository chart

theorem retargetText_eq (text repository chart version : String) :
    retargetText text repository chart version =
      (declaredRevision text repository chart >>= fun declared =>
        (declared.2.rewrite version).map fun moved =>
          String.ofList (writeBack (Line.split text) declared.1 moved.render)) := by
  unfold retargetText declaredRevision
  dsimp only
  cases collectSources (Line.split text) with
  | error error => rfl
  | ok sources =>
      show (revisionOf sources repository chart >>= _) = revisionOf sources repository chart >>= _
      cases revisionOf sources repository chart with
      | error error => rfl
      | ok declared =>
          show (declared.2.rewrite version >>= _) = (declared.2.rewrite version).map _
          cases declared.2.rewrite version <;> rfl

theorem rewrite_eq {scalar : Scalar} {quote : TextLine}
    (hquote : Scalar.quoteOf scalar.value = .ok quote) (version : String) :
    scalar.rewrite version =
      if isWritable version then .ok { scalar with value := quoted quote version }
      else .error ("cannot be moved to '" ++ version ++ "', which is not a version a chart repository " ++
        "publishes and not one YAML would read back as written") := by
  unfold Scalar.rewrite
  rw [hquote]
  show (if isWritable version = true then _ else _) = _
  split
  · rfl
  · rfl

/-- A source names one chart of one repository. -/
theorem names_inj {entry : Entry} {repository chart otherRepository otherChart : String}
    (h : entry.names otherRepository otherChart = true)
    (hnames : entry.names repository chart = true) :
    (otherRepository, otherChart) = (repository, chart) := by
  unfold Entry.names at h hnames
  rw [Bool.and_eq_true, beq_iff_eq, beq_iff_eq] at h hnames
  rw [h.1, Option.some.injEq, String.toList_inj] at hnames
  rw [h.2, Option.some.injEq, String.toList_inj] at hnames
  rw [hnames.1, hnames.2]

/-- The source that a revision is read from. -/
theorem revisionOf_eq_ok {sources : List Entry} {repository chart : String}
    {declared : Nat × Scalar} :
    revisionOf sources repository chart = .ok declared ↔
      sources.findSome? Entry.saidTwice = none ∧
        ∃ source, sources.filter (fun source => source.names repository chart) = [source] ∧
          source.target.first = some declared := by
  unfold revisionOf
  cases sources.findSome? Entry.saidTwice with
  | some key => simp
  | none =>
      cases hmatched : sources.filter fun source => source.names repository chart with
      | nil => simp
      | cons source rest =>
          cases rest with
          | nil => cases htarget : source.target.first <;> simp [htarget]
          | cons second rest => simp

/-- The sources as they are read after a move. -/
theorem revisionOf_moved (change : Nat × Scalar → Nat × Scalar) (sources : List Entry)
    (repository chart : String) :
    revisionOf (sources.map (Entry.moved change)) repository chart =
      (revisionOf sources repository chart).map change := by
  have hsaid : (sources.map (Entry.moved change)).findSome? Entry.saidTwice =
      sources.findSome? Entry.saidTwice := by
    rw [List.findSome?_map]
    rfl
  have hfilter : (sources.map (Entry.moved change)).filter
      (fun source => source.names repository chart) =
        (sources.filter fun source => source.names repository chart).map (Entry.moved change) := by
    rw [List.filter_map]
    rfl
  unfold revisionOf
  rw [hsaid, hfilter]
  cases sources.findSome? Entry.saidTwice with
  | some key => rfl
  | none =>
      cases sources.filter fun source => source.names repository chart with
      | nil => rfl
      | cons source rest =>
          cases rest with
          | nil =>
              have hfirst : (source.moved change).target.first =
                  source.target.first.map change := rfl
              rw [List.map_cons, List.map_nil]
              dsimp only
              rw [hfirst]
              cases source.target.first <;> rfl
          | cons second rest =>
              show Except.error _ = Except.error _
              simp

/-- A declared revision was read off its own line, which no other source's was. -/
theorem declaredRevision_eq_ok {text repository chart : String} {declared : Nat × Scalar}
    (h : declaredRevision text repository chart = .ok declared) :
    ∃ sources source before after, collectSources (Line.split text) = .ok sources ∧
      sources = before ++ source :: after ∧ source.target.first = some declared ∧
        source.names repository chart = true ∧
          (∃ line, (declared.1, line) ∈ numbered 0 (Line.split text) ∧
            ∃ dash, IsRevision line dash declared.2) ∧
          ∀ other ∈ before ++ after, ∀ target, other.target.first = some target →
            target.1 ≠ declared.1 := by
  obtain ⟨sources, hcollect, hrevision⟩ := bind_eq_ok.mp h
  obtain ⟨-, source, hmatched, htarget⟩ := revisionOf_eq_ok.mp hrevision
  have hmem : source ∈ sources.filter fun source => source.names repository chart := by
    rw [hmatched]
    exact List.mem_singleton.mpr rfl
  obtain ⟨hsource, hnames⟩ := List.mem_filter.mp hmem
  obtain ⟨before, after, hsources⟩ := List.append_of_mem hsource
  have hcollected := hcollect
  unfold collectSources at hcollected
  obtain ⟨final, hrun, rfl⟩ : ∃ final, (numbered 0 (Line.split text)).foldlM Walk.step Walk.start =
      .ok final ∧ final.entries = sources := by
    cases hrun : (numbered 0 (Line.split text)).foldlM Walk.step Walk.start with
    | error error =>
        rw [hrun] at hcollected
        cases hcollected
    | ok final =>
        rw [hrun] at hcollected
        exact ⟨final, rfl, Except.ok.inj hcollected⟩
  have hsourced : Sourced (fun target => ∃ line,
      (target.1, line) ∈ numbered 0 (Line.split text) ∧ ∃ dash, IsRevision line dash target.2)
      (0 + (Line.split text).length) final.entries := sourced_of_run (whole_split text).isWhole (fun item hitem target hclaims =>
      ⟨item.2, by rw [hclaims.1]; exact hitem, hclaims.2⟩)
    (sourced_start _) hrun
  refine ⟨final.entries, source, before, after, hcollect, hsources, htarget, hnames,
    (hsourced.reads source hsource declared htarget).2, ?_⟩
  have hordered := hsourced.ordered
  rw [hsources, List.pairwise_append, List.pairwise_cons] at hordered
  intro other hother target hfirst
  rcases List.mem_append.mp hother with hbefore | hafter
  · exact (hordered.2.2 other hbefore source List.mem_cons_self target declared hfirst htarget).ne
  · exact (hordered.2.1.1 other hafter declared target htarget hfirst).ne'

theorem numbered_append {α : Type} (index : Nat) (front back : List α) :
    numbered index (front ++ back) =
      numbered index front ++ numbered (index + front.length) back := by
  induction front generalizing index with
  | nil => rfl
  | cons item front ih =>
      rw [List.cons_append, numbered, numbered, ih, List.length_cons, List.cons_append,
        Nat.add_assoc, Nat.add_comm 1]

theorem index_of_mem_numbered {α : Type} {index : Nat} {items : List α} {item : Nat × α}
    (h : item ∈ numbered index items) : index ≤ item.1 ∧ item.1 < index + items.length := by
  induction items generalizing index with
  | nil => cases h
  | cons first items ih =>
      rcases List.mem_cons.mp h with rfl | hrest
      · exact ⟨le_rfl, by rw [List.length_cons]; omega⟩
      · have hbounds := ih hrest
        rw [List.length_cons]
        omega

/-- The lines around one of some number. -/
theorem lines_around {α : Type} {index : Nat} {items : List α} {item : Nat × α}
    (h : item ∈ numbered index items) :
    ∃ front back, items = front ++ item.2 :: back ∧ item.1 = index + front.length := by
  induction items generalizing index with
  | nil => cases h
  | cons first items ih =>
      rcases List.mem_cons.mp h with rfl | hrest
      · exact ⟨[], items, rfl, rfl⟩
      · obtain ⟨front, back, rfl, hindex⟩ := ih hrest
        refine ⟨first :: front, back, rfl, ?_⟩
        rw [hindex, List.length_cons]
        omega

section Around

variable {front back : List Line} {line : Line}

theorem line_of_mem_numbered {other : Line}
    (h : (front.length, other) ∈ numbered 0 (front ++ line :: back)) : other = line := by
  rw [numbered_append, numbered] at h
  rcases List.mem_append.mp h with hfront | hrest
  · have hindex := (index_of_mem_numbered hfront).2
    dsimp only at hindex
    omega
  · rcases List.mem_cons.mp hrest with heq | hback
    · exact (Prod.mk.inj heq).2
    · have hindex := (index_of_mem_numbered hback).1
      dsimp only at hindex
      omega

/-- Away from a line nothing is written otherwise. -/
theorem flatMap_away {index pinned : Nat} {lines : List Line} (content : TextLine)
    (h : ∀ item ∈ numbered index lines, item.1 ≠ pinned) :
    (numbered index lines).flatMap (fun item =>
      (if item.1 = pinned then content else item.2.content) ++ item.2.terminator) =
        joined lines := by
  induction lines generalizing index with
  | nil => rfl
  | cons line lines ih =>
      unfold joined numbered
      rw [List.flatMap_cons, List.flatMap_cons,
        if_neg (h (index, line) List.mem_cons_self)]
      congr 1
      exact ih fun item hitem => h item (List.mem_cons_of_mem _ hitem)

theorem writeBack_around (content : TextLine) :
    writeBack (front ++ line :: back) front.length content =
      joined front ++ content ++ line.terminator ++ joined back := by
  unfold writeBack
  rw [numbered_append, List.flatMap_append, numbered, List.flatMap_cons]
  rw [flatMap_away, flatMap_away]
  · rw [if_pos (by dsimp only; omega)]
    simp
  · intro item hitem
    have hindex := (index_of_mem_numbered hitem).1
    omega
  · intro item hitem
    have hindex := (index_of_mem_numbered hitem).2
    omega

theorem replaced_away {index pinned : Nat} {lines : List Line} (content : TextLine)
    (h : ∀ item ∈ numbered index lines, item.1 ≠ pinned) :
    replaced pinned content index lines = lines := by
  induction lines generalizing index with
  | nil => rfl
  | cons line lines ih =>
      rw [replaced_cons, if_neg (h (index, line) List.mem_cons_self),
        ih fun item hitem => h item (List.mem_cons_of_mem _ hitem)]

theorem replaced_around (content : TextLine) :
    replaced front.length content 0 (front ++ line :: back) =
      front ++ Line.read (content ++ line.terminator) :: back := by
  have hfront : replaced front.length content 0 front = front := by
    refine replaced_away content fun item hitem => ?_
    have hindex := (index_of_mem_numbered hitem).2
    omega
  have hback : replaced front.length content (0 + front.length + 1) back = back := by
    refine replaced_away content fun item hitem => ?_
    have hindex := (index_of_mem_numbered hitem).1
    omega
  unfold replaced at hfront hback ⊢
  rw [numbered_append, List.map_append, numbered, List.map_cons, hfront, hback,
    if_pos (by dsimp only; omega)]

end Around

/-- A value in its quotes: where it starts and where it ends it is neither blank nor broken. -/
theorem quoted_signs {value quote : TextLine} {version : String}
    (hquote : Scalar.quoteOf value = .ok quote) (hversion : isWritable version = true) :
    quoted quote version ≠ [] ∧ ∀ c ∈ quoted quote version, isWhitespace c = false := by
  obtain ⟨hne, hchars⟩ := isWritable_cases hversion
  have hsign : ∀ c ∈ quote, isWhitespace c = false := by
    obtain ⟨c, rest, -, ⟨hc, rfl⟩ | ⟨-, -, rfl⟩⟩ := quoteOf_cases hquote
    · intro d hd
      rw [List.mem_singleton.mp hd]
      rcases hc with rfl | rfl
      · decide
      · decide
    · exact fun _ hd => nomatch hd
  unfold quoted
  refine ⟨by simp [hne], fun c hc => ?_⟩
  rcases List.mem_append.mp hc with hfront | hback
  · rcases List.mem_append.mp hfront with hopening | hword
    · exact hsign c hopening
    · exact isWritableChar_blank (hchars c hword)
  · exact hsign c hback

theorem unquoted_quoted {scalar : Scalar} {value quote : TextLine} {version : String}
    (hquote : Scalar.quoteOf value = .ok quote) (hversion : isWritable version = true)
    (hvalue : scalar.value = quoted quote version) : scalar.unquoted = version.toList := by
  obtain ⟨hne, hchars⟩ := isWritable_cases hversion
  unfold Scalar.unquoted
  rw [hvalue]
  obtain ⟨c, rest, -, ⟨hc, rfl⟩ | ⟨-, -, rfl⟩⟩ := quoteOf_cases hquote
  · have hstrip : Scalar.stripQuotes c (quoted [c] version) = some version.toList := by
      simp [Scalar.stripQuotes, quoted]
    rcases hc with rfl | rfl
    · rw [hstrip]
      rfl
    · have hother : Scalar.stripQuotes '"' (quoted ['\''] version) = none := by
        simp [Scalar.stripQuotes, quoted]
      rw [hother, hstrip]
      rfl
  · obtain ⟨d, more, hmore⟩ := List.exists_cons_of_ne_nil hne
    have hd : ∀ sign : Char, isWritableChar sign = false → d ≠ sign :=
      fun sign hsign => isWritableChar_ne (hchars d (by rw [hmore]; simp)) hsign
    have hbare : quoted [] version = d :: more := by simp [quoted, hmore]
    have hstrip : ∀ sign : Char, isWritableChar sign = false →
        Scalar.stripQuotes sign (d :: more) = none := by
      intro sign hsign
      unfold Scalar.stripQuotes
      exact if_neg (hd sign hsign)
    rw [hbare, hstrip '"' (by decide), hstrip '\'' (by decide), hmore]
    rfl

theorem opensABlock_of_quoteOf {scalar : Scalar} {quote : TextLine}
    (h : Scalar.quoteOf scalar.value = .ok quote) : scalar.opensABlock = false := by
  unfold Scalar.opensABlock
  obtain ⟨c, rest, hvalue, ⟨hc, -⟩ | ⟨-, hspecial, -⟩⟩ := quoteOf_cases h
  · rw [hvalue]
    rcases hc with rfl | rfl
    · rfl
    · rfl
  · rw [hvalue]
    simp only [List.mem_cons, not_or] at hspecial
    simp [hspecial.1, hspecial.2.1]

namespace IsRevision

variable {line : Line} {dash quote : TextLine} {revision : Scalar} {version : String}

/-- With a version in place of its value a revision's line is a revision's line. -/
theorem moves (h : IsRevision line dash revision)
    (hquote : Scalar.quoteOf revision.value = .ok quote) (hversion : isWritable version = true) :
    let moved : Scalar := { revision with value := quoted quote version }
    Replaces moved.render line ∧
      IsRevision (Line.read (moved.render ++ line.terminator)) dash moved := by
  intro moved
  obtain ⟨hne, hsigns⟩ := quoted_signs hquote hversion
  have hbreak : ∀ c : Char, isWhitespace c = true → c ∉ quoted quote version := by
    intro c hc hmem
    rw [hsigns c hmem] at hc
    cases hc
  have hread : moved.IsRead := by
    refine ⟨h.isRead.key, h.isRead.gap, ?_, ?_, splitValue_quoted h.isRead.split hquote hversion⟩
    · intro hgap
      obtain ⟨c, rest, hvalue, -⟩ := quoteOf_cases hquote
      have hnone := h.isRead.apart hgap
      rw [hvalue] at hnone
      cases hnone
    · intro c hc
      obtain ⟨d, more, hmore⟩ := List.exists_cons_of_ne_nil hne
      have hd : c = d := by
        rw [show moved.value = quoted quote version from rfl, hmore] at hc
        exact (Option.some.inj hc).symm
      rw [hd]
      exact isSeparation_of_blank (hsigns d (by rw [hmore]; simp))
  have hunbroken : '\n' ∉ moved.render := by
    have hwhole := h.whole.unbroken
    rw [h.content] at hwhole
    unfold Scalar.render at hwhole ⊢
    simp only [List.mem_append, not_or] at hwhole ⊢
    exact ⟨⟨hwhole.1.1, hbreak _ (by decide)⟩, hwhole.2⟩
  have hends : EndsIn moved.render line.terminator := by
    rcases h.whole.ends with hnone | ⟨hfeed, hlast⟩ | hboth
    · exact .inl hnone
    · refine .inr (.inl ⟨hfeed, ?_⟩)
      rw [h.content] at hlast
      unfold Scalar.render at hlast ⊢
      rw [List.getLast?_append] at hlast ⊢
      cases hsuffix : revision.suffix.getLast? with
      | some c =>
          rw [hsuffix] at hlast
          exact hlast
      | none =>
          rw [Option.none_or, show moved.value = quoted quote version from rfl, List.getLast?_append_of_ne_nil _ hne]
          exact fun hmem => hbreak '\r' (by decide) (List.mem_of_getLast? hmem)
    · exact .inr (.inr hboth)
  obtain ⟨more, hmore⟩ : ∃ more, moved.field = 't' :: more := by
    unfold Scalar.field
    rw [show moved.key = "targetRevision".toList from h.key]
    exact ⟨_, rfl⟩
  have hrender : moved.render = line.spaces ++ (dash ++ moved.field) := by
    rw [render_eq, show moved.lead = line.spaces ++ dash from h.lead, List.append_assoc]
  have hspaces : moved.render.takeWhile (· = ' ') = line.spaces := by
    have hall : ∀ c ∈ line.spaces, decide (c = ' ') = true :=
      fun c hc => decide_eq_true (h.whole.spaces_blank c hc)
    rw [hrender, List.takeWhile_append_of_pos hall, hmore]
    rcases h.marked with rfl | ⟨pads, rfl⟩
    · rw [List.nil_append, List.takeWhile_cons_of_neg (by decide), List.append_nil]
    · rw [List.cons_append, List.takeWhile_cons_of_neg (by decide), List.append_nil]
  have hnonempty : moved.render ≠ [] := by
    rw [render_eq, hmore]
    simp
  obtain ⟨hwhole, hcontent, -⟩ := isWhole_read hunbroken hends
  refine ⟨⟨hunbroken, hnonempty, hends⟩, hwhole, h.marked, ?_, h.key, hcontent, hread⟩
  rw [hwhole.spaces, hcontent, hspaces]
  exact h.lead

end IsRevision

/-- The walk over the lines after a move, up to what the moved line says. -/
theorem run_replaced {pinned index : Nat} {revision : Scalar} {value : TextLine}
    (hvalue : revision.opensABlock = false)
    (hmoved : ({ revision with value } : Scalar).opensABlock = false) {lines : List Line}
    (hlines : ∀ line, (pinned, line) ∈ numbered index lines → ∃ dash,
      IsRevision line dash revision ∧
        IsRevision (Line.read (({ revision with value } : Scalar).render ++ line.terminator)) dash
          { revision with value }) (walk : Walk) :
    (numbered index (replaced pinned ({ revision with value } : Scalar).render index lines)).foldlM
        Walk.step (walk.moved (movedAt pinned value)) =
      ((numbered index lines).foldlM Walk.step walk).map (Walk.moved (movedAt pinned value)) := by
  induction lines generalizing index walk with
  | nil => rfl
  | cons line rest ih =>
      have hrest := fun next => ih (fun other hother => hlines other (List.mem_cons_of_mem _ hother))
        next
      have hstep : (walk.moved (movedAt pinned value)).step (index,
          if index = pinned then
            Line.read (({ revision with value } : Scalar).render ++ line.terminator) else line) =
          (walk.step (index, line)).map (Walk.moved (movedAt pinned value)) := by
        split
        · next hindex =>
            subst hindex
            obtain ⟨dash, hline, hother⟩ := hlines line List.mem_cons_self
            exact hline.step_moved hother hvalue hmoved walk
        · next hindex => exact step_of_ne hindex walk line
      rw [replaced_cons, numbered, numbered, List.foldlM_cons, List.foldlM_cons, hstep]
      cases walk.step (index, line) with
      | error error => rfl
      | ok next => exact hrest next

section Moved

variable {text : String} {front back : List Line} {line : Line} {dash quote : TextLine}
  {revision : Scalar} {version : String}

/-- The lines of a text that was written back with a revision moved. -/
theorem split_moved (hlines : Line.split text = front ++ line :: back)
    (hrevision : IsRevision line dash revision) (hquote : Scalar.quoteOf revision.value = .ok quote)
    (hversion : isWritable version = true) :
    Line.split (String.ofList (writeBack (Line.split text) front.length
        ({ revision with value := quoted quote version } : Scalar).render)) =
      replaced front.length ({ revision with value := quoted quote version } : Scalar).render 0
        (Line.split text) := by
  refine split_writeBack fun other hother => ?_
  rw [hlines] at hother
  rw [line_of_mem_numbered hother]
  exact (hrevision.moves hquote hversion).1

/-- Every chart's revision as it is read after a move: the same, but for the one that was moved. -/
theorem declaredRevision_moved (hlines : Line.split text = front ++ line :: back)
    (hrevision : IsRevision line dash revision) (hquote : Scalar.quoteOf revision.value = .ok quote)
    (hversion : isWritable version = true) (repository chart : String) :
    declaredRevision (String.ofList (writeBack (Line.split text) front.length
        ({ revision with value := quoted quote version } : Scalar).render)) repository chart =
      (declaredRevision text repository chart).map
        (movedAt front.length (quoted quote version)) := by
  have hmoved : ({ revision with value := quoted quote version } : Scalar).opensABlock = false :=
    opensABlock_of_quoteOf (quoteOf_quoted hquote hversion)
  have hmoves : ∀ other, (front.length, other) ∈ numbered 0 (Line.split text) → ∃ dash,
      IsRevision other dash revision ∧ IsRevision (Line.read
        (({ revision with value := quoted quote version } : Scalar).render ++ other.terminator)) dash
          { revision with value := quoted quote version } := by
    intro other hother
    rw [hlines] at hother
    rw [line_of_mem_numbered hother]
    exact ⟨dash, hrevision, (hrevision.moves hquote hversion).2⟩
  have hrun := run_replaced (opensABlock_of_quoteOf hquote) hmoved hmoves Walk.start
  have hcollect : collectSources (replaced front.length
      ({ revision with value := quoted quote version } : Scalar).render 0 (Line.split text)) =
        (collectSources (Line.split text)).map
          (List.map (Entry.moved (movedAt front.length (quoted quote version)))) := by
    unfold collectSources
    have hstart : Walk.start.moved (movedAt front.length (quoted quote version)) = Walk.start := rfl
    rw [hstart] at hrun
    rw [hrun]
    cases (numbered 0 (Line.split text)).foldlM Walk.step Walk.start <;> rfl
  unfold declaredRevision
  rw [split_moved hlines hrevision hquote hversion, hcollect]
  cases collectSources (Line.split text) with
  | error error => rfl
  | ok sources => exact revisionOf_moved _ sources repository chart

/-- A text written back after a move is written back as it would have been before it. -/
theorem writeBack_moved (hlines : Line.split text = front ++ line :: back)
    (hrevision : IsRevision line dash revision) (hquote : Scalar.quoteOf revision.value = .ok quote)
    (hversion : isWritable version = true) (content : TextLine) :
    writeBack (replaced front.length ({ revision with value := quoted quote version } : Scalar).render
        0 (Line.split text)) front.length content =
      writeBack (Line.split text) front.length content := by
  have hreplaces := (hrevision.moves hquote hversion).1
  rw [hlines, replaced_around, writeBack_around, writeBack_around,
    (isWhole_read hreplaces.unbroken hreplaces.ends).2.2]

end Moved

/-- What a move leaves of an Application: one value is another, in the quotes it was in; the chart's
revision is read as that, and every other chart's as it was; the next move does not see this one,
and moving back restores the text. -/
structure MovesOneVersion (text repository chart version out : String) : Prop where
  declares : ∃ index moved, declaredRevision out repository chart = .ok (index, moved) ∧
    moved.unquoted = version.toList
  others : ∀ otherRepository otherChart, (otherRepository, otherChart) ≠ (repository, chart) →
    declaredRevision out otherRepository otherChart =
      declaredRevision text otherRepository otherChart
  forgets : ∀ next, retarget out repository chart next = retarget text repository chart next
  writes : ∃ before value after quote revision index,
    declaredRevision text repository chart = .ok (index, revision) ∧ revision.value = value ∧
      Scalar.quoteOf value = .ok quote ∧ text.toList = before ++ value ++ after ∧
        out.toList = before ++ quoted quote version ++ after ∧
          ∀ old, isWritable old = true → quoted quote old = value →
            retarget out repository chart old = .ok text

/-- The text a revision's line stands in, around its value. -/
theorem text_around {text : String} {front back : List Line} {line : Line} {revision : Scalar}
    (hlines : Line.split text = front ++ line :: back) (value : TextLine) :
    writeBack (Line.split text) front.length ({ revision with value } : Scalar).render =
      (joined front ++ revision.lead ++ revision.key ++ ':' :: revision.gap) ++ value ++
        (revision.suffix ++ line.terminator ++ joined back) := by
  rw [hlines, writeBack_around]
  simp [Scalar.render]

theorem writeBack_same {text : String} {front back : List Line} {line : Line}
    (hlines : Line.split text = front ++ line :: back) :
    String.ofList (writeBack (Line.split text) front.length line.content) = text := by
  have hjoined : joined (front ++ line :: back) =
      joined front ++ line.content ++ line.terminator ++ joined back := by
    unfold joined
    rw [List.flatMap_append, List.flatMap_cons]
    simp
  rw [hlines, writeBack_around, ← hjoined, ← hlines, joined_split, String.ofList_toList]

/-- What a move is of: the one source's revision, on its line, in its quotes. -/
theorem retargetText_eq_ok {text repository chart version out : String}
    (h : retargetText text repository chart version = .ok out) :
    ∃ (front back : List Line) (line : Line) (dash quote : TextLine) (revision : Scalar),
      declaredRevision text repository chart = .ok (front.length, revision) ∧
        Line.split text = front ++ line :: back ∧ IsRevision line dash revision ∧
          Scalar.quoteOf revision.value = .ok quote ∧ isWritable version = true ∧
            String.ofList (writeBack (Line.split text) front.length
              ({ revision with value := quoted quote version } : Scalar).render) = out := by
  rw [retargetText_eq] at h
  obtain ⟨⟨pinned, revision⟩, hdeclared, hwritten⟩ := bind_eq_ok.mp h
  obtain ⟨-, -, -, -, -, -, -, -, ⟨line, hline, dash, hrevision⟩, -⟩ :=
    declaredRevision_eq_ok hdeclared
  dsimp only at hline hrevision hwritten
  obtain ⟨quote, hquote⟩ : ∃ quote, Scalar.quoteOf revision.value = .ok quote := by
    cases hquote : Scalar.quoteOf revision.value with
    | ok quote => exact ⟨quote, rfl⟩
    | error error =>
        unfold Scalar.rewrite at hwritten
        rw [hquote] at hwritten
        cases hwritten
  rw [rewrite_eq hquote] at hwritten
  have hversion : isWritable version = true := by
    by_contra hnot
    rw [if_neg hnot] at hwritten
    cases hwritten
  rw [if_pos hversion] at hwritten
  obtain ⟨front, back, hlines, hindex⟩ := lines_around hline
  dsimp only at hlines hindex
  rw [Nat.zero_add] at hindex
  subst hindex
  exact ⟨front, back, line, dash, quote, revision, hdeclared, hlines, hrevision, hquote, hversion,
    Except.ok.inj hwritten⟩

/-- Two charts' revisions stand on different lines. -/
theorem declaredRevision_apart {text repository chart otherRepository otherChart : String}
    {declared other : Nat × Scalar} (h : declaredRevision text repository chart = .ok declared)
    (hother : declaredRevision text otherRepository otherChart = .ok other)
    (hne : (otherRepository, otherChart) ≠ (repository, chart)) : other.1 ≠ declared.1 := by
  obtain ⟨sources, source, before, after, hcollect, hsources, -, hnames, -, hapart⟩ :=
    declaredRevision_eq_ok h
  obtain ⟨again, second, front, back, hagain, hsecond, hfirst, hnamed, -, -⟩ :=
    declaredRevision_eq_ok hother
  rw [hcollect] at hagain
  cases hagain
  have hmem : second ∈ before ++ source :: after := by
    rw [← hsources, hsecond]
    simp
  rcases List.mem_append.mp hmem with hbefore | hrest
  · exact hapart second (by simp [hbefore]) other hfirst
  · rcases List.mem_cons.mp hrest with rfl | hafter
    · exact absurd (names_inj hnamed hnames) hne
    · exact hapart second (by simp [hafter]) other hfirst

/-- An Application that is moved is moved in one value, and can be moved back. -/
theorem retarget_moves_one_version {text repository chart version out : String}
    (h : retarget text repository chart version = .ok out) :
    MovesOneVersion text repository chart version out := by
  obtain ⟨front, back, line, dash, quote, revision, hdeclared, hlines, hrevision, hquote, hversion,
    hout⟩ := retargetText_eq_ok (Library.mapError_eq_ok.mp h)
  have hread := declaredRevision_moved hlines hrevision hquote hversion
  have hsplit := split_moved hlines hrevision hquote hversion
  rw [hout] at hread hsplit
  have hforgets : ∀ next, retargetText out repository chart next =
      retargetText text repository chart next := by
    intro next
    rw [retargetText_eq, retargetText_eq, hread, hdeclared]
    show Except.map _ ((movedAt _ _ (front.length, revision)).2.rewrite next) =
      Except.map _ (revision.rewrite next)
    rw [movedAt_self, rewrite_eq (quoteOf_quoted hquote hversion), rewrite_eq hquote]
    split
    · rw [hsplit]
      exact congrArg (fun written => Except.ok (String.ofList written))
        (writeBack_moved hlines hrevision hquote hversion _)
    · rfl
  constructor
  · refine ⟨front.length, { revision with value := quoted quote version }, ?_,
      unquoted_quoted hquote hversion rfl⟩
    rw [hread, hdeclared]
    exact congrArg Except.ok (movedAt_self _ _ _)
  · intro otherRepository otherChart hother
    rw [hread]
    cases hfound : declaredRevision text otherRepository otherChart with
    | error error => rfl
    | ok target =>
        exact congrArg Except.ok (movedAt_of_ne (declaredRevision_apart hdeclared hfound hother))
  · intro next
    unfold retarget
    rw [hforgets]
  · refine ⟨joined front ++ revision.lead ++ revision.key ++ ':' :: revision.gap, revision.value,
      revision.suffix ++ line.terminator ++ joined back, quote, revision, front.length, hdeclared,
      rfl, hquote, ?_, ?_, ?_⟩
    · conv => lhs; rw [← writeBack_same hlines, String.toList_ofList, hrevision.content]
      exact text_around hlines revision.value
    · rw [← hout, String.toList_ofList]
      exact text_around hlines (quoted quote version)
    · intro old hold hvalue
      unfold retarget
      rw [hforgets, Library.mapError_eq_ok, retargetText_eq, hdeclared]
      show Except.map _ (revision.rewrite old) = _
      rw [rewrite_eq hquote, if_pos hold, hvalue]
      show Except.ok (String.ofList (writeBack (Line.split text) front.length revision.render)) = _
      rw [← hrevision.content, writeBack_same hlines]

/-- A chart pinned beside a dash, in quotes, with a comment after it and no line feed at the end. -/
theorem quoted_chart_moves_one_version :
    MovesOneVersion "spec:\n  sources:\n  - targetRevision: '1.2' # now\n    repoURL: r\n    chart: c"
      "r" "c" "2.0"
      "spec:\n  sources:\n  - targetRevision: '2.0' # now\n    repoURL: r\n    chart: c" :=
  retarget_moves_one_version (by decide +kernel)

end Argo
end PlatformGit
end SaasFabric
