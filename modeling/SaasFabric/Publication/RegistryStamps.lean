import SaasFabric.Publication.Commits
import SaasFabric.Publication.Interrupted

/-!
# What a registry's generation names

The registry is written before the record that commits it, so a generation may be held that
no record names yet.  A generation is kept where the registry is the same, and is above
everything held and recorded otherwise: it is never stamped on two registries.
-/

namespace SaasFabric
namespace Publication

open Library (bind_eq_ok)

variable {codecs : Codecs}

/-! ## What was written, and what is held -/

/-- The registry an event wrote, if it wrote one. -/
def Event.registry? : Event → Option Bytes
  | .wrote (.registry bytes) => some bytes
  | _ => none

/-- Every registry that was written, in order. -/
def registries (events : List Event) : List Bytes := events.filterMap Event.registry?

/-- A registry that is the held one, or of a lower generation than it. -/
def NotAhead (codecs : Codecs) (held : Option Bytes) (bytes : Bytes) : Prop :=
  ∃ generation, heldGeneration codecs bytes = .ok generation ∧
    (held = some bytes ∨
      ∃ newest, heldGenerations codecs held = .ok (some newest) ∧ generation < newest)

/-- What may be stamped over what is held: the same registry, or a higher generation. -/
def Fresh (codecs : Codecs) (held : Option Bytes) (bytes : Bytes)
    (generation : RegistryGeneration) : Prop :=
  held = some bytes ∨
    ∀ found, heldGenerations codecs held = .ok (some found) → found < generation

theorem heldGenerations_some {bytes : Bytes} {generation : RegistryGeneration}
    (h : heldGeneration codecs bytes = .ok generation) :
    heldGenerations codecs (some bytes) = .ok (some generation) := by
  unfold heldGenerations
  dsimp only
  rw [h]
  rfl

theorem heldGeneration_line (hlawful : codecs.Lawful) {document : IssuerRegistryDocument}
    {bytes : Bytes} (h : codecs.registry.line document = .ok bytes) :
    heldGeneration codecs bytes = .ok document.generation := by
  unfold heldGeneration
  rw [hlawful.registry.read_line h]
  rfl

/-- What is fresh is above every other registry that is not ahead of what is held. -/
theorem NotAhead.lt_of_fresh {held : Option Bytes} {bytes other : Bytes}
    {generation otherGeneration : RegistryGeneration} (h : NotAhead codecs held other)
    (hother : heldGeneration codecs other = .ok otherGeneration)
    (hfresh : Fresh codecs held bytes generation)
    (hbytes : heldGeneration codecs bytes = .ok generation) :
    other = bytes ∨ otherGeneration < generation := by
  obtain ⟨found, hfound, hcase⟩ := h
  rw [hother] at hfound
  cases hfound
  rcases hcase with hsame | ⟨newest, hnewest, hlt⟩
  · rcases hfresh with hheld | habove
    · exact Or.inl (Option.some.inj (hsame.symm.trans hheld))
    · refine Or.inr (habove otherGeneration ?_)
      rw [hsame]
      exact heldGenerations_some hother
  · rcases hfresh with hheld | habove
    · rw [hheld, heldGenerations_some hbytes] at hnewest
      cases hnewest
      exact Or.inr hlt
    · exact Or.inr (hlt.trans (habove newest hnewest))

/-- What is not ahead stays so under what is fresh. -/
theorem NotAhead.of_fresh {held : Option Bytes} {bytes other : Bytes}
    {generation : RegistryGeneration} (h : NotAhead codecs held other)
    (hfresh : Fresh codecs held bytes generation)
    (hbytes : heldGeneration codecs bytes = .ok generation) :
    NotAhead codecs (some bytes) other := by
  obtain ⟨otherGeneration, hother, -⟩ := id h
  refine ⟨otherGeneration, hother, ?_⟩
  rcases h.lt_of_fresh hother hfresh hbytes with rfl | hlt
  · exact Or.inl rfl
  · exact Or.inr ⟨generation, heldGenerations_some hbytes, hlt⟩

/-- What a run keeps of the registries it wrote: none is ahead of the held one, and each
generation is of one registry. -/
structure Stamped (codecs : Codecs) (held : Option Bytes) (written : List Bytes) : Prop where
  notAhead : ∀ bytes ∈ written, NotAhead codecs held bytes
  once : ∀ first ∈ written, ∀ second ∈ written,
    heldGeneration codecs first = heldGeneration codecs second → first = second

theorem stamped_nil (held : Option Bytes) : Stamped codecs held [] :=
  ⟨fun _ h => absurd h List.not_mem_nil, fun _ h => absurd h List.not_mem_nil⟩

/-- Stamping what is fresh keeps every generation of one registry. -/
theorem Stamped.stamp {held : Option Bytes} {written new : List Bytes} {bytes : Bytes}
    {generation : RegistryGeneration} (h : Stamped codecs held written)
    (hfresh : Fresh codecs held bytes generation)
    (hbytes : heldGeneration codecs bytes = .ok generation)
    (hnew : ∀ other ∈ new, other = bytes) : Stamped codecs (some bytes) (written ++ new) := by
  have hself : NotAhead codecs (some bytes) bytes := ⟨generation, hbytes, Or.inl rfl⟩
  -- An earlier registry of the same generation is the same registry.
  have hsame : ∀ other ∈ written, heldGeneration codecs other = heldGeneration codecs bytes →
      other = bytes := by
    intro other hother heq
    rw [hbytes] at heq
    rcases (h.notAhead other hother).lt_of_fresh heq hfresh hbytes with hsame | hlt
    · exact hsame
    · exact absurd hlt (lt_irrefl _)
  constructor
  · intro other hother
    rcases List.mem_append.mp hother with hwritten | hmem
    · exact (h.notAhead other hwritten).of_fresh hfresh hbytes
    · rw [hnew other hmem]
      exact hself
  · intro first hfirst second hsecond heq
    rcases List.mem_append.mp hfirst with hfirst | hfirst <;>
      rcases List.mem_append.mp hsecond with hsecond | hsecond
    · exact h.once first hfirst second hsecond heq
    · rw [hnew second hsecond] at heq ⊢
      exact hsame first hfirst heq
    · rw [hnew first hfirst] at heq ⊢
      exact (hsame second hsecond heq.symm).symm
    · rw [hnew first hfirst, hnew second hsecond]

/-! ## What is committed -/

/-- A commit whose record names a registry: the registrations that were offered, each issuer
once, and only tenants of the documents it is committed with. -/
structure NamesRegistry (codecs : Codecs) (commit : Commit) (document : IssuerRegistryDocument)
    (bytes : Bytes) : Prop where
  registry : commit.registry = some document
  line : codecs.registry.line document = .ok bytes
  recorded : commit.record.registry = some ⟨document.generation, codecs.sha256Hex bytes⟩
  offered : ∃ offered, commit.registrations = some offered ∧ document.issuers.Perm offered
  once : (document.issuers.map IssuerRegistration.issuer).Nodup
  bound : ∀ registration ∈ document.issuers,
    registration.tenant ∈ commit.tenants.map TenantBindingDocument.tenant

/-- A later commit names no lower generation, and at the same one the same registrations. -/
def Commit.RegistryFollows (earlier later : Commit) : Prop :=
  ∀ recorded, earlier.record.registry = some recorded →
    ∃ other, later.record.registry = some other ∧ recorded.generation ≤ other.generation ∧
      (recorded.generation = other.generation → ∃ first second,
        earlier.registrations = some first ∧ later.registrations = some second ∧
          first.Perm second)

theorem Commit.RegistryFollows.trans {first second third : Commit}
    (h : first.RegistryFollows second) (hnext : second.RegistryFollows third) :
    first.RegistryFollows third := by
  intro recorded hrecorded
  obtain ⟨middle, hmiddle, hle, hsame⟩ := h recorded hrecorded
  obtain ⟨last, hlast, hleNext, hsameNext⟩ := hnext middle hmiddle
  refine ⟨last, hlast, hle.trans hleNext, fun heq => ?_⟩
  have hfirst : recorded.generation = middle.generation := le_antisymm hle (heq ▸ hleNext)
  obtain ⟨offered, again, hoffered, hagain, hperm⟩ := hsame hfirst
  obtain ⟨found, latest, hfound, hlatest, hpermNext⟩ := hsameNext (hfirst ▸ heq)
  rw [hagain] at hfound
  cases hfound
  exact ⟨offered, latest, hoffered, hlatest, hperm.trans hpermNext⟩

/-- SHA-256 tells the registry that is held from what is offered, rendered for the recorded
generation. -/
def RegistryToldApart (codecs : Codecs) (held : HeldDocuments) (snapshot : RuntimeSnapshot) :
    Prop :=
  ∀ record recorded bytes offered rendered,
    held.parseRecord codecs = .ok (some record) → record.registry = some recorded →
      held.registry = some bytes → snapshot.registry = some offered →
        render codecs recorded.generation offered = .ok rendered →
          codecs.sha256 rendered.2 = codecs.sha256 bytes → rendered.2 = bytes

/-- What a run keeps of what is held, of the registries it wrote and of what it committed. -/
structure RegistryTracks (codecs : Codecs) (held : HeldDocuments) (written : List Bytes)
    (log : List Commit) : Prop where
  recorded : held.parseRecord codecs = .ok (lastRecord log)
  stamped : Stamped codecs held.registry written
  ordered : log.Pairwise Commit.RegistryFollows
  named : ∀ commit ∈ log, commit.record.registry = none ∨
    ∃ document bytes, NamesRegistry codecs commit document bytes
  notAhead : ∀ last document bytes, log.getLast? = some last →
    NamesRegistry codecs last document bytes → NotAhead codecs held.registry bytes

theorem registryTracks_absent : RegistryTracks codecs HeldDocuments.absent [] [] :=
  ⟨rfl, stamped_nil _, List.Pairwise.nil, fun _ h => absurd h List.not_mem_nil,
    fun _ _ _ h => nomatch h⟩

section Planned

variable {snapshot : RuntimeSnapshot} {held : HeldDocuments} {plan : PublicationPlan}
  {record : Option PublicationRecord} {published : PublishedResources} {log : List Commit}
  {written : List Bytes}

theorem RegistryTracks.record_eq (h : RegistryTracks codecs held written log)
    (hplanned : Planned codecs snapshot held plan record published) : record = lastRecord log := by
  have hparsed := h.recorded
  rw [hplanned.reads.parsed] at hparsed
  exact Except.ok.inj hparsed

/-- What is planned of a registry. -/
theorem Planned.registry_cases (hplanned : Planned codecs snapshot held plan record published)
    {registry : RegistryPlan} (hregistry : plan.registry = some registry) :
    ∃ offered, snapshot.registry = some offered ∧
      (∀ registration ∈ offered, registration.tenant ∈
        snapshot.tenants.payload.map TenantBindingDocument.tenant) ∧
      render codecs registry.document.generation offered =
        .ok (registry.document, registry.bytes) ∧
      Stamps codecs (record.bind PublicationRecord.registry) held.registry offered
        registry.document.generation ∧
      (registry.outcome = .written → held.registry ≠ some registry.bytes) := by
  rcases decideRegistry_eq_ok.mp hplanned.registry with ⟨-, -, hnone⟩ |
    ⟨offered, generation, document, bytes, hoffered, hbound, hgeneration, hrender, hsome⟩
  · rw [hregistry] at hnone
    cases hnone
  · rw [hregistry] at hsome
    cases hsome
    have hdocument : document.generation = generation :=
      IssuerRegistryDocument.generation_new (render_eq_ok.mp hrender).1
    subst hdocument
    refine ⟨offered, hoffered, hbound, hrender, stamps_of_generationFor hgeneration, ?_⟩
    intro houtcome hheld
    rw [if_pos hheld] at houtcome
    cases houtcome

/-- What is planned of a registry may be stamped. -/
theorem RegistryTracks.fresh (hlawful : codecs.Lawful)
    (h : RegistryTracks codecs held written log)
    (hplanned : Planned codecs snapshot held plan record published)
    (hapart : RegistryToldApart codecs held snapshot) {registry : RegistryPlan}
    (hregistry : plan.registry = some registry) :
    Fresh codecs held.registry registry.bytes registry.document.generation := by
  obtain ⟨offered, hoffered, -, hrender, hstamps, -⟩ := hplanned.registry_cases hregistry
  cases hstamps with
  | next habove _ => exact Or.inr habove
  | ahead rendered hother hheld =>
      rw [hrender] at hother
      cases hother
      exact Or.inl hheld
  | kept rendered hother hrecorded hnewest =>
      rw [hrender] at hother
      cases hother
      obtain ⟨last, hlast, hnamed⟩ := Option.bind_eq_some_iff.mp hrecorded
      have hlog := (h.record_eq hplanned).symm.trans hlast
      obtain ⟨commit, hcommit, rfl⟩ := Option.map_eq_some_iff.mp hlog
      -- The last commit's registry is the one that is held.
      rcases h.named commit (List.mem_of_getLast? hcommit) with hnone | ⟨document, bytes, hnames⟩
      · rw [hnone] at hnamed
        cases hnamed
      · have hsame := hnames.recorded
        rw [hnamed, Option.some.injEq, RecordedRegistry.mk.injEq] at hsame
        obtain ⟨hgeneration, hdigest⟩ := hsame
        obtain ⟨found, hfound, hcase⟩ := h.notAhead commit document bytes hcommit hnames
        rw [heldGeneration_line hlawful hnames.line] at hfound
        cases hfound
        rcases hcase with hheld | ⟨newest, hread, hlt⟩
        · have hparsed := hplanned.reads.parsed
          rw [hlast] at hparsed
          have hbytes := hapart _ _ bytes offered _ hparsed hnamed hheld hoffered hrender
            (Reader.toString_digest_injective hdigest)
          exact Or.inl (hheld.trans (congrArg some hbytes.symm))
        · exact absurd (hnewest newest hread) (not_le.mpr (hgeneration ▸ hlt))

/-- What is planned of a registry is held by its generation. -/
theorem Planned.heldGeneration (hlawful : codecs.Lawful)
    (hplanned : Planned codecs snapshot held plan record published) {registry : RegistryPlan}
    (hregistry : plan.registry = some registry) :
    Publication.heldGeneration codecs registry.bytes = .ok registry.document.generation := by
  obtain ⟨offered, -, -, hrender, -⟩ := hplanned.registry_cases hregistry
  exact heldGeneration_line hlawful (render_eq_ok.mp hrender).2

/-- What a plan commits of a registry. -/
theorem Planned.namesRegistry (hplanned : Planned codecs snapshot held plan record published)
    {registry : RegistryPlan} (hregistry : plan.registry = some registry) :
    NamesRegistry codecs (plan.commit snapshot) registry.document registry.bytes := by
  obtain ⟨offered, hoffered, hbound, hrender, -⟩ := hplanned.registry_cases hregistry
  obtain ⟨hdocument, hline⟩ := render_eq_ok.mp hrender
  obtain ⟨hperm, honce⟩ := IssuerRegistryDocument.issuers_new hdocument
  refine ⟨?_, hline, ?_, ⟨offered, hoffered, hperm⟩, honce, fun registration hmem => ?_⟩
  · show plan.registry.map RegistryPlan.document = _
    rw [hregistry]
    rfl
  · show plan.record.record.registry = _
    rw [hplanned.recordNames.2, hregistry]
    rfl
  · obtain ⟨tenant, htenant, hsame⟩ := List.mem_map.mp (hbound registration (hperm.mem_iff.mp hmem))
    exact List.mem_map.mpr ⟨tenant, mem_sortedBy.mpr htenant, hsame⟩

/-- What a plan without a registry commits names none, and none was named before. -/
theorem Planned.namesNone (hplanned : Planned codecs snapshot held plan record published)
    (hregistry : plan.registry = none) :
    (plan.commit snapshot).record.registry = none ∧
      record.bind PublicationRecord.registry = none := by
  constructor
  · show plan.record.record.registry = _
    rw [hplanned.recordNames.2, hregistry]
    rfl
  · rcases decideRegistry_eq_ok.mp hplanned.registry with ⟨-, hrecorded, -⟩ |
      ⟨_, _, _, _, -, -, -, -, hsome⟩
    · exact hrecorded
    · rw [hregistry] at hsome
      cases hsome

/-- What a plan commits follows the last commit. -/
theorem RegistryTracks.follows (hlawful : codecs.Lawful)
    (h : RegistryTracks codecs held written log)
    (hplanned : Planned codecs snapshot held plan record published)
    (hapart : RegistryToldApart codecs held snapshot) {last : Commit}
    (hlast : log.getLast? = some last) : last.RegistryFollows (plan.commit snapshot) := by
  intro recorded hrecorded
  have hrecord : record = some last.record := by
    rw [h.record_eq hplanned]
    unfold lastRecord
    rw [hlast]
    rfl
  rcases h.named last (List.mem_of_getLast? hlast) with hnone | ⟨document, bytes, hnames⟩
  · rw [hnone] at hrecorded
    cases hrecorded
  rw [hnames.recorded] at hrecorded
  cases hrecorded
  cases hregistry : plan.registry with
  | none =>
      obtain ⟨-, hnone⟩ := hplanned.namesNone hregistry
      rw [hrecord] at hnone
      change last.record.registry = none at hnone
      rw [hnames.recorded] at hnone
      cases hnone
  | some registry =>
      have hnew := hplanned.namesRegistry hregistry
      refine ⟨_, hnew.recorded, ?_⟩
      dsimp only
      rcases (h.notAhead last document bytes hlast hnames).lt_of_fresh
          (heldGeneration_line hlawful hnames.line)
          (h.fresh hlawful hplanned hapart hregistry)
          (hplanned.heldGeneration hlawful hregistry) with rfl | hlt
      · -- The same bytes are the same document.
        have hdocument : document = registry.document := by
          have hread := hlawful.registry.read_line hnames.line
          rw [hlawful.registry.read_line hnew.line] at hread
          exact (Except.ok.inj hread).symm
        subst hdocument
        obtain ⟨first, hfirst, hperm⟩ := hnames.offered
        obtain ⟨second, hsecond, hpermNew⟩ := hnew.offered
        exact ⟨le_rfl, fun _ => ⟨first, second, hfirst, hsecond, hperm.symm.trans hpermNew⟩⟩
      · exact ⟨hlt.le, fun heq => absurd heq hlt.ne⟩

/-! ## One attempt -/

/-- What a plan wrote of its registry, or did not get to, keeps every generation of one
registry. -/
theorem RegistryTracks.stamp (hlawful : codecs.Lawful)
    (h : RegistryTracks codecs held written log)
    (hplanned : Planned codecs snapshot held plan record published)
    (hapart : RegistryToldApart codecs held snapshot) {after : Option Bytes} {new : List Bytes}
    (hafter : after = held.registry ∨
      ∃ registry, plan.registry = some registry ∧ after = some registry.bytes)
    (hnew : ∀ other ∈ new, ∃ registry, plan.registry = some registry ∧ other = registry.bytes ∧
      after = some registry.bytes) :
    Stamped codecs after (written ++ new) ∧
      ∀ bytes, NotAhead codecs held.registry bytes → NotAhead codecs after bytes := by
  by_cases hstamped : ∃ registry, plan.registry = some registry ∧ after = some registry.bytes
  · obtain ⟨registry, hregistry, rfl⟩ := hstamped
    have hfresh := h.fresh hlawful hplanned hapart hregistry
    have hheld := hplanned.heldGeneration hlawful hregistry
    refine ⟨h.stamped.stamp hfresh hheld fun other hother => ?_, fun bytes hbytes =>
      hbytes.of_fresh hfresh hheld⟩
    obtain ⟨found, hfound, hsame, -⟩ := hnew other hother
    rw [hregistry] at hfound
    cases hfound
    exact hsame
  · have hnone : new = [] := by
      refine List.eq_nil_iff_forall_not_mem.mpr fun other hother => hstamped ?_
      obtain ⟨registry, hregistry, -, hheld⟩ := hnew other hother
      exact ⟨registry, hregistry, hheld⟩
    rw [hafter.resolve_right hstamped, hnone, List.append_nil]
    exact ⟨h.stamped, fun _ hbytes => hbytes⟩

/-- An attempt that stops keeps what is tracked. -/
theorem RegistryTracks.interrupted (hlawful : codecs.Lawful)
    (h : RegistryTracks codecs held written log)
    (hplanned : Planned codecs snapshot held plan record published)
    (hapart : RegistryToldApart codecs held snapshot) {after : HeldDocuments} {new : List Bytes}
    (hleft : Left plan held after)
    (hnew : ∀ other ∈ new, ∃ registry, plan.registry = some registry ∧ other = registry.bytes ∧
      after.registry = some registry.bytes) :
    RegistryTracks codecs after (written ++ new) log := by
  obtain ⟨hstamped, hnotAhead⟩ := h.stamp hlawful hplanned hapart hleft.registry hnew
  refine ⟨?_, hstamped, h.ordered, h.named, fun last document bytes hlast hnames =>
    hnotAhead bytes (h.notAhead last document bytes hlast hnames)⟩
  have hparsed := h.recorded
  unfold HeldDocuments.parseRecord at hparsed ⊢
  rw [hleft.record]
  exact hparsed

/-- An attempt that is carried out keeps what is tracked. -/
theorem RegistryTracks.completed (hlawful : codecs.Lawful)
    (h : RegistryTracks codecs held written log)
    (hplanned : Planned codecs snapshot held plan record published)
    (hapart : RegistryToldApart codecs held snapshot) {new : List Bytes}
    (hnew : ∀ other ∈ new, ∃ registry, plan.registry = some registry ∧ other = registry.bytes ∧
      (plan.carriedOut held).registry = some registry.bytes) :
    RegistryTracks codecs (plan.carriedOut held) (written ++ new)
      (log ++ [plan.commit snapshot]) := by
  have hcarried : ∀ registry, plan.registry = some registry →
      (plan.carriedOut held).registry = some registry.bytes := by
    intro registry hregistry
    have hdecided := hplanned.registry
    rw [hregistry] at hdecided
    show carriedOutRegistry plan.registry held.registry = _
    rw [hregistry]
    exact carriedOutRegistry_eq hdecided
  -- The registry is left alone, or holds what was planned.
  have hafter : (plan.carriedOut held).registry = held.registry ∨ ∃ registry,
      plan.registry = some registry ∧
        (plan.carriedOut held).registry = some registry.bytes := by
    cases hregistry : plan.registry with
    | none =>
        refine Or.inl ?_
        show carriedOutRegistry plan.registry held.registry = _
        rw [hregistry]
        rfl
    | some registry => exact Or.inr ⟨registry, rfl, hcarried registry hregistry⟩
  obtain ⟨hstamped, hnotAhead⟩ := h.stamp hlawful hplanned hapart hafter hnew
  refine ⟨?_, hstamped, ?_, ?_, ?_⟩
  · rw [lastRecord_append]
    exact hplanned.parseRecord_carriedOut hlawful
  · refine Library.pairwise_concat (R := Commit.RegistryFollows)
      (fun _ _ _ hfirst hsecond => hfirst.trans hsecond) h.ordered ?_
    exact fun last hlast => h.follows hlawful hplanned hapart hlast
  · intro commit hcommit
    rcases List.mem_append.mp hcommit with hearlier | hlast
    · exact h.named commit hearlier
    · rw [List.mem_singleton.mp hlast]
      cases hregistry : plan.registry with
      | none => exact Or.inl (hplanned.namesNone hregistry).1
      | some registry => exact Or.inr ⟨_, _, hplanned.namesRegistry hregistry⟩
  · intro last document bytes hlast hnames
    rw [List.getLast?_concat] at hlast
    cases hlast
    cases hregistry : plan.registry with
    | none =>
        have hnone := (hplanned.namesNone hregistry).1
        rw [hnames.recorded] at hnone
        cases hnone
    | some registry =>
        have hplannedNames := hplanned.namesRegistry hregistry
        have hdocument := hplannedNames.registry
        rw [hnames.registry] at hdocument
        cases hdocument
        have hbytes := hplannedNames.line
        rw [hnames.line] at hbytes
        cases hbytes
        exact ⟨_, heldGeneration_line hlawful hnames.line, Or.inl (hcarried registry hregistry)⟩

end Planned

theorem registries_append (first second : List Event) :
    registries (first ++ second) = registries first ++ registries second :=
  List.filterMap_append

/-- The registries of an attempt are those it wrote. -/
theorem mem_registries_events {published : Published} {bytes : Bytes} :
    bytes ∈ registries published.events ↔ Write.registry bytes ∈ published.written := by
  unfold Published.events
  rw [registries_append, List.mem_append]
  have hcommitted : registries (published.outcome.commits.map .committed) = [] := by
    unfold registries
    rw [List.filterMap_map]
    exact List.filterMap_eq_nil_iff.mpr fun _ _ => rfl
  rw [hcommitted]
  unfold registries
  simp only [List.filterMap_map, List.mem_filterMap, Function.comp_apply, List.not_mem_nil,
    or_false]
  constructor
  · rintro ⟨write, hwrite, hregistry⟩
    cases write <;> cases hregistry
    exact hwrite
  · exact fun hwrite => ⟨_, hwrite, rfl⟩

/-- An attempt keeps what is tracked, refused, interrupted or carried out. -/
theorem RegistryTracks.publish (hlawful : codecs.Lawful) {target : Target} {held : HeldDocuments}
    {written : List Bytes} {log : List Commit} (h : RegistryTracks codecs held written log)
    (hheld : readHeld codecs target = .ok held) {attempt : Attempt}
    (hapart : RegistryToldApart codecs held attempt.snapshot) :
    ∃ after, readHeld codecs (Publication.publish codecs target attempt).target = .ok after ∧
      RegistryTracks codecs after
        (written ++ registries (Publication.publish codecs target attempt).events)
        (log ++ commits (Publication.publish codecs target attempt).events) := by
  have hrefused : ∀ error, Publication.publish codecs target attempt =
      ⟨target, [], .refused error⟩ → RegistryTracks codecs held
        (written ++ registries (Publication.publish codecs target attempt).events)
        (log ++ commits (Publication.publish codecs target attempt).events) := by
    intro error hsame
    have hnothing : registries (Publication.publish codecs target attempt).events = [] ∧
        commits (Publication.publish codecs target attempt).events = [] := by
      rw [hsame]
      exact ⟨rfl, rfl⟩
    rw [hnothing.1, hnothing.2, List.append_nil, List.append_nil]
    exact h
  cases hfault : attempt.fault with
  | some error =>
      have hsame := publish_refused hheld (Or.inl hfault)
      refine ⟨held, ?_, hrefused error hsame⟩
      rw [hsame]
      exact hheld
  | none =>
      cases hplan : planPublication codecs attempt.snapshot held with
      | error error =>
          have hsame := publish_refused hheld (Or.inr ⟨hfault, hplan⟩)
          refine ⟨held, ?_, hrefused error hsame⟩
          rw [hsame]
          exact hheld
      | ok plan =>
          obtain ⟨record, published, hplanned⟩ := (planPublication_eq_ok hlawful).mp hplan
          obtain ⟨hafter, hwritten, houtcome⟩ := publish_planned hlawful hheld hfault hplan
          refine ⟨_, hafter, ?_⟩
          have hnew : ∀ other ∈ registries (Publication.publish codecs target attempt).events,
              ∃ registry, plan.registry = some registry ∧ other = registry.bytes ∧
                (held.writeAll (plan.writes.take attempt.stop)).registry =
                  some registry.bytes := by
            intro other hother
            rw [mem_registries_events, hwritten] at hother
            obtain ⟨hleft, registry, hregistry, hsame⟩ := registry_of_mem_take held hother
            exact ⟨registry, hregistry, hsame.symm, hsame ▸ hleft⟩
          rw [commits_events, houtcome]
          rcases writeAll_take_writes plan held attempt.stop with ⟨hall, hcarried⟩ | ⟨hlt, hleft⟩
          · rw [if_pos hall]
            rw [hcarried] at hnew ⊢
            exact h.completed hlawful hplanned hapart hnew
          · rw [if_neg (not_le.mpr hlt)]
            show RegistryTracks codecs _ _ (log ++ [])
            rw [List.append_nil]
            exact h.interrupted hlawful hplanned hapart hleft hnew

/-! ## Runs -/

/-- A generation is stamped on one registry, whether or not it was committed; the generations
that are committed never decrease, and stay equal for equal registrations only; and a
committed registry names an issuer once, and bound tenants only. -/
structure OneRegistryEach (codecs : Codecs) (events : List Event) : Prop where
  stamped : ∀ bytes ∈ registries events, ∃ generation,
    heldGeneration codecs bytes = .ok generation
  once : ∀ first ∈ registries events, ∀ second ∈ registries events,
    heldGeneration codecs first = heldGeneration codecs second → first = second
  committed : (commits events).Pairwise Commit.RegistryFollows
  named : ∀ commit ∈ commits events, commit.record.registry = none ∨
    ∃ document bytes, NamesRegistry codecs commit document bytes

/-- Every run of publications keeps to one registry for each generation. -/
theorem generation_names_one_registry (hlawful : codecs.Lawful) {attempts : List Attempt}
    (hapart : (publisher codecs).Meets (OnHeld codecs (RegistryToldApart codecs)) Target.empty
      attempts) :
    OneRegistryEach codecs ((publisher codecs).emitted Target.empty attempts) := by
  let Run (target : Target) (events : List Event) : Prop :=
    ∃ held, readHeld codecs target = .ok held ∧
      RegistryTracks codecs held (registries events) (commits events)
  have hempty : Run Target.empty [] :=
    ⟨HeldDocuments.absent, readHeld_empty, registryTracks_absent⟩
  have hrun : Run ((publisher codecs).final Target.empty attempts)
      ([] ++ (publisher codecs).emitted Target.empty attempts) := by
    refine (publisher codecs).trace_invariant_of_meets Run ?_ hempty hapart
    rintro target events attempt hattempt ⟨held, hheld, htracks⟩
    obtain ⟨after, hafter, hkept⟩ := htracks.publish hlawful hheld (hattempt held hheld)
    refine ⟨after, hafter, ?_⟩
    rw [registries_append, commits_append]
    exact hkept
  obtain ⟨held, -, htracks⟩ := hrun
  rw [List.nil_append] at htracks
  refine ⟨fun bytes hbytes => ?_, htracks.stamped.once, htracks.ordered, htracks.named⟩
  obtain ⟨generation, hgeneration, -⟩ := htracks.stamped.notAhead bytes hbytes
  exact ⟨generation, hgeneration⟩

/-- One tenant, published with its issuer and then with another one beside it: two registries are
written. -/
theorem acme_generation_names_one_registry :
    OneRegistryEach registeredSamples.codecs
      ((publisher registeredSamples.codecs).emitted Target.empty
        [⟨registeredSnapshot [acmeRegistration], none, 8⟩,
          ⟨registeredSnapshot [acmeRegistration, staffRegistration], none, 8⟩]) ∧
    lineOf acmeRegistryText ∈ registries ((publisher registeredSamples.codecs).emitted Target.empty
      [⟨registeredSnapshot [acmeRegistration], none, 8⟩,
        ⟨registeredSnapshot [acmeRegistration, staffRegistration], none, 8⟩]) ∧
    lineOf (staffRegistryText "2") ∈ registries
      ((publisher registeredSamples.codecs).emitted Target.empty
        [⟨registeredSnapshot [acmeRegistration], none, 8⟩,
          ⟨registeredSnapshot [acmeRegistration, staffRegistration], none, 8⟩]) := by
  obtain ⟨again, hagain, hregistry⟩ := reregisteredSnapshot_planned
  obtain ⟨-, hfirst, -⟩ :=
    publish_whole registeredSamples.lawful readHeld_empty registeredSnapshot_planned
  obtain ⟨-, hsecond, -⟩ := publish_whole registeredSamples.lawful readHeld_registered hagain
  refine ⟨generation_names_one_registry registeredSamples.lawful ⟨?_, ?_, trivial⟩, ?_, ?_⟩
  · intro held hheld record recorded bytes offered rendered hrecord
    -- Nothing is recorded yet.
    rw [readHeld_empty] at hheld
    cases hheld
    cases hrecord
  · intro held hheld record recorded bytes offered rendered hrecord hrecorded hbytes hoffered
      hrendered hdigest
    have hsame : held = registeredPlan.carriedOut HeldDocuments.absent :=
      Except.ok.inj (hheld.symm.trans readHeld_registered)
    subst hsame
    obtain ⟨named, published, hplanned⟩ :=
      (planPublication_eq_ok registeredSamples.lawful).mp registeredSnapshot_planned
    rw [hplanned.parseRecord_carriedOut registeredSamples.lawful] at hrecord
    cases hrecord
    rw [registeredPlan_record] at hrecorded
    cases hrecorded
    cases hbytes
    cases hoffered
    -- The two registries of the first generation have different digests.
    rw [render_staffRegistry (List.mem_cons_of_mem _ List.mem_cons_self)] at hrendered
    cases hrendered
    dsimp only at hdigest
    rw [Samples.sha256_of firstStaffRegistry_digest, Samples.sha256_of acmeRegistry_digest]
      at hdigest
    exact absurd hdigest (by decide +kernel)
  · show _ ∈ registries ((publish registeredSamples.codecs _ _).events ++ _)
    rw [registries_append]
    refine List.mem_append_left _ (mem_registries_events.mpr ?_)
    rw [hfirst]
    exact mem_writes_registry.mpr ⟨_, rfl, rfl, rfl⟩
  · show _ ∈ registries ((publish registeredSamples.codecs _ _).events ++
      ((publish registeredSamples.codecs _ _).events ++ []))
    rw [registries_append, List.append_nil]
    refine List.mem_append_right _ (mem_registries_events.mpr ?_)
    have hwritten := mem_writes_registry.mpr ⟨_, hregistry, rfl, rfl⟩
    rw [← hsecond] at hwritten
    exact hwritten

end Publication
end SaasFabric
