import Mathlib.Algebra.Order.BigOperators.Group.List
import Mathlib.Algebra.Order.Ring.Nat
import SaasFabric.Kubernetes.Overlapping
import SaasFabric.Kubernetes.Sampled

/-!
# What overlapping publishers leave

Whatever the order of their requests, and wherever each of them stops, publishers leave every
object's versions in one chain.  One that writes has read every document it leaves unchanged
again before its first write, exactly where it does not change the registry alone.
-/

namespace SaasFabric
namespace Kubernetes

open Library
open Publication

/-- Two versions that carry a registry of one generation carry one digest. -/
def OneRegistry (codecs : Codecs) (first second : Stored) : Prop :=
  ∀ bytes other, bytesAt first.data ISSUER_REGISTRY_FILE = some bytes →
    bytesAt second.data ISSUER_REGISTRY_FILE = some other →
      heldGeneration codecs bytes = heldGeneration codecs other →
        codecs.sha256Hex bytes = codecs.sha256Hex other

/-- What was written of a namespace, version by version. -/
structure Uncorrupted (codecs : Codecs) (cluster : Cluster) : Prop where
  chained : ∀ document,
    Chained codecs document (cluster document).first (cluster document).written
  revisions : ∀ document, (cluster document).versions.Pairwise (RevisionFollows codecs document)
  registries : (cluster .tenants).versions.Pairwise (RegistryFollows codecs)
  carried : ∀ stored ∈ (cluster .tenants).written, CarriesRegistry codecs stored
  oneRegistry : ∀ first ∈ (cluster .tenants).written, ∀ second ∈ (cluster .tenants).written,
    OneRegistry codecs first second

/-- A publisher, under way. -/
abbrev Publisher :=
  Process.Session Cluster Call Effect.Answer (Except PublicationError PublicationReport)

/-- A pass that has written, from what it read and planned. -/
structure Wrote (codecs : Codecs) (pass : Publisher) (reads : Reads) (plan : PublicationPlan) :
    Prop where
  written : pass.trace.any isWrite = true
  fetched : Planning codecs reads (pass.trace.take 3)
  planned : planPublication codecs pass.call.snapshot reads.held = .ok plan

/-- A pass that has written read every document it leaves unchanged after it was planned and
before its first write, at the version it was planned from. -/
def ConfirmedFirst (codecs : Codecs) (pass : Publisher) : Prop :=
  pass.trace.any isWrite = true → ∃ reads plan, Wrote codecs pass reads plan ∧
    Confirmed codecs plan reads ((pass.trace.drop 3).takeWhile isGet)

/-- A pass that has written, and changes the registry alone. -/
def WroteRegistryOnly (codecs : Codecs) (pass : Publisher) : Prop :=
  ∃ reads plan, Wrote codecs pass reads plan ∧ RegistryOnly plan

variable {codecs : Codecs}

/-! ## The versions -/

/-- A record that follows another names one digest for one generation. -/
theorem RegistryFollows.oneRegistry {first second : Stored}
    (h : RegistryFollows codecs first second) (hfirst : CarriesRegistry codecs first)
    (hsecond : CarriesRegistry codecs second) : OneRegistry codecs first second := by
  intro bytes other hbytes hother hgeneration
  have hnamed : ∀ {stored : Stored} {bytes : Bytes}, CarriesRegistry codecs stored →
      bytesAt stored.data ISSUER_REGISTRY_FILE = some bytes → ∃ generation,
        heldGeneration codecs bytes = .ok generation ∧
          registryOf codecs stored = some ⟨generation, codecs.sha256Hex bytes⟩ := by
    rintro stored bytes (⟨-, hnone⟩ | ⟨_, generation, hsome, hheld, hrecord⟩) hbytes
    · rw [hnone] at hbytes
      cases hbytes
    · rw [hbytes] at hsome
      cases hsome
      exact ⟨generation, hheld, hrecord⟩
  obtain ⟨generation, hheld, hrecord⟩ := hnamed hfirst hbytes
  obtain ⟨_, hheld', hrecord'⟩ := hnamed hsecond hother
  rw [hheld, hheld'] at hgeneration
  cases hgeneration
  obtain ⟨new, hnew, -, hsame⟩ := h _ hrecord
  rw [hrecord'] at hnew
  cases hnew
  exact congrArg RecordedRegistry.sha256 (hsame rfl)

theorem kept_holding (first : DocumentKind → Option Stored) :
    Kept codecs (Cluster.holding first) := by
  constructor
  · intro document
    unfold Cluster.holding History.versions
    cases first document <;> simp
  · exact fun _ => trivial

theorem Kept.uncorrupted (hlawful : codecs.Lawful) {cluster : Cluster}
    (h : Kept codecs cluster) : Uncorrupted codecs cluster := by
  have hregistries : (cluster .tenants).versions.Pairwise (RegistryFollows codecs) :=
    (h.chained .tenants).pairwise (·.trans) (·.registryFollows hlawful)
  have hcarried : ∀ stored ∈ (cluster .tenants).written, CarriesRegistry codecs stored := by
    intro stored hmem
    obtain ⟨earlier, snapshot, reads, plan, hmade⟩ := (h.chained .tenants).replaces hmem
    exact hmade.carriesRegistry hlawful
  have hwritten : (cluster .tenants).written.Pairwise (OneRegistry codecs) := by
    refine (List.pairwise_append.mp hregistries).2.1.imp_of_mem ?_
    intro first second hfirst hsecond hfollows
    exact hfollows.oneRegistry (hcarried first hfirst) (hcarried second hsecond)
  have hsymmetric : Std.Symm (OneRegistry codecs) := ⟨fun _ _ h bytes other hbytes hother heq =>
    (h other bytes hother hbytes heq.symm).symm⟩
  refine ⟨h.chained, fun document => ?_, hregistries, hcarried, ?_⟩
  · exact (h.chained document).pairwise (·.trans) (·.revisionFollows hlawful)
  · refine hwritten.forall_of_forall fun stored _ bytes other hbytes hother _ => ?_
    rw [hbytes] at hother
    cases hother
    rfl

/-! ## The reads before a write -/

/-- What a publication is planned from is what was read. -/
theorem Planning.unique {reads other : Reads} {trace : List Exchanged}
    (h : Planning codecs reads trace) (hother : Planning codecs other trace) : reads = other := by
  obtain ⟨tenants, dataSources, catalog, rfl, htenants, hdataSources, hcatalog⟩ := h
  obtain ⟨_, _, _, hsame, htenants', hdataSources', hcatalog'⟩ := hother
  cases hsame
  rw [htenants] at htenants'
  rw [hdataSources] at hdataSources'
  rw [hcatalog] at hcatalog'
  obtain ⟨_, _, _⟩ := reads
  obtain ⟨_, _, _⟩ := other
  cases htenants'
  cases hdataSources'
  cases hcatalog'
  rfl

theorem Wrote.unique {pass : Publisher} {reads other : Reads} {plan planned : PublicationPlan}
    (h : Wrote codecs pass reads plan) (hother : Wrote codecs pass other planned) :
    reads = other ∧ plan = planned := by
  have hreads := h.fetched.unique hother.fetched
  subst hreads
  exact ⟨rfl, Except.ok.inj (h.planned.symm.trans hother.planned)⟩

/-- Before a write everything that stays was read again, unless the registry alone changes. -/
theorem WritesAfter.confirmed_iff {call : Call} {before : List Exchanged} {document : DocumentKind}
    {reads : Reads} {plan : PublicationPlan} {planning confirming writing : List Exchanged}
    (h : WritesAfter codecs call before document reads plan planning confirming writing) :
    Confirmed codecs plan reads confirming ↔ ¬RegistryOnly plan := by
  have hconfirmed := h.confirmed
  by_cases hleaves : LeavesDocuments plan
  · rw [if_pos hleaves] at hconfirmed
    subst hconfirmed
    obtain ⟨hrecord, hdataSources, hcatalog, htenants⟩ := hleaves
    -- What is written is the tenants object, for its registry.
    have hdocument : document = .tenants := by
      refine outcome_of_written h.written ?_
      cases document with
      | tenants => exact htenants
      | dataSources => exact hdataSources
      | catalog => exact hcatalog
    subst hdocument
    have honly : RegistryOnly plan := by
      refine ⟨⟨hrecord, hdataSources, hcatalog, htenants⟩, ?_⟩
      rcases outcome_tenantsObjectPlan.mp h.written with hwritten | hwritten | hwritten
      · rw [htenants] at hwritten
        cases hwritten
      · rw [hrecord] at hwritten
        cases hwritten
      · exact hwritten
    constructor
    · intro hall
      obtain ⟨_, _, hmem, -⟩ := hall .tenants htenants
      exact absurd hmem List.not_mem_nil
    · exact fun hnot => absurd honly hnot
  · rw [if_neg hleaves] at hconfirmed
    exact ⟨fun _ honly => hleaves honly.1, fun _ => hconfirmed⟩

/-- A pass that has written was planned of its first three reads, and every document it leaves was
read again before its first write exactly where it does not change the registry alone. -/
theorem exists_wrote {first : DocumentKind → Option Stored}
    {configuration : Interleaved.Configuration Cluster Publisher}
    (hruns : (publishers codecs).Runs ⟨Cluster.holding first, []⟩ configuration) {pass : Publisher}
    (hpass : pass ∈ configuration.operations) (hwrites : pass.trace.any isWrite = true) :
    ∃ reads plan, Wrote codecs pass reads plan ∧
      (Confirmed codecs plan reads ((pass.trace.drop 3).takeWhile isGet) ↔ ¬RegistryOnly plan) := by
  -- The first write, and what came before it.
  obtain ⟨event, hevent⟩ := Option.isSome_iff_exists.mp (List.find?_isSome.mpr
    (List.any_eq_true.mp hwrites))
  obtain ⟨hwrite, before, after, hsplit, hbefore⟩ := List.find?_eq_some_iff_append.mp hevent
  have hspec := meets_spec.seen (kept_holding first) hruns hpass hsplit
  obtain ⟨_, -, hseen⟩ := hspec
  obtain ⟨effect, answer⟩ := event
  cases effect with
  | get document => cases hwrite
  | write document object =>
      obtain ⟨reads, plan, planning, confirming, writing, hafter⟩ := hseen
      have hnone : writing = [] := by
        refine List.eq_nil_iff_forall_not_mem.mpr fun event hmem => ?_
        have hnot := hbefore event (by
          rw [hafter.split]
          exact List.mem_append_right _ (List.mem_append_right _ hmem))
        rw [hafter.writes event hmem] at hnot
        cases hnot
      have htrace : pass.trace = planning ++ (confirming ++ ⟨.write document object, answer⟩ ::
          after) := by
        rw [hsplit, hafter.split, hnone, List.append_nil, List.append_assoc]
      have hlength : planning.length = 3 := by
        obtain ⟨_, _, _, rfl, -⟩ := hafter.fetched
        rfl
      have htake : pass.trace.take 3 = planning := by
        rw [htrace, ← hlength, List.take_left]
      have hdrop : (pass.trace.drop 3).takeWhile isGet = confirming := by
        rw [htrace, ← hlength, List.drop_left, List.takeWhile_append_of_pos hafter.gets]
        simp [isGet]
      refine ⟨reads, plan, ⟨hwrites, htake ▸ hafter.fetched, hafter.planned⟩, ?_⟩
      rw [hdrop]
      exact hafter.confirmed_iff

/-- In every run the versions are uncorrupted, and every pass that has written has confirmed what
it leaves, exactly where none that has written changes the registry alone. -/
theorem publishers_keep_history (hlawful : codecs.Lawful) {first : DocumentKind → Option Stored}
    {configuration : Interleaved.Configuration Cluster Publisher}
    (hruns : (publishers codecs).Runs ⟨Cluster.holding first, []⟩ configuration) :
    (Uncorrupted codecs configuration.shared ∧
        ∀ pass ∈ configuration.operations, ConfirmedFirst codecs pass) ↔
      ∀ pass ∈ configuration.operations, ¬WroteRegistryOnly codecs pass := by
  have hkept : Kept codecs configuration.shared :=
    (meets_spec.runs (kept_holding first) hruns).1
  constructor
  · rintro ⟨-, hconfirmed⟩ pass hpass ⟨reads, plan, hwrote, honly⟩
    obtain ⟨_, _, hown, hiff⟩ := exists_wrote hruns hpass hwrote.written
    obtain ⟨_, _, hsame, hall⟩ := hconfirmed pass hpass hwrote.written
    obtain ⟨rfl, rfl⟩ := hown.unique hwrote
    obtain ⟨rfl, rfl⟩ := hsame.unique hwrote
    exact hiff.mp hall honly
  · intro hnone
    refine ⟨hkept.uncorrupted hlawful, fun pass hpass hwrites => ?_⟩
    obtain ⟨reads, plan, hwrote, hiff⟩ := exists_wrote hruns hpass hwrites
    exact ⟨reads, plan, hwrote, hiff.mpr fun honly => hnone pass hpass ⟨reads, plan, hwrote, honly⟩⟩

/-! ## A registry that was lost -/

/-- A version that no object of a namespace had. -/
def unused (cluster : Cluster) (document : DocumentKind) : String :=
  String.ofList (List.replicate
    (((cluster document).versions.map fun stored => stored.resourceVersion.length).sum + 1) 'v')

theorem unused_not_mem (cluster : Cluster) (document : DocumentKind) :
    unused cluster document ∉ (cluster document).versions.map Stored.resourceVersion := by
  intro hmem
  obtain ⟨stored, hstored, hversion⟩ := List.mem_map.mp hmem
  have hlength := congrArg String.length hversion
  unfold unused at hlength
  rw [String.length_ofList, List.length_replicate] at hlength
  have hle : stored.resourceVersion.length ≤
      ((cluster document).versions.map fun stored => stored.resourceVersion.length).sum :=
    List.le_sum_of_mem (List.mem_map.mpr ⟨stored, hstored, rfl⟩)
  omega

/-- An API server of small objects that gives versions no object had. -/
def smallServer : ApiServer := smallAnswers unused

/-- Where every request arrives, the API server answers as it may. -/
theorem world_serve (cluster : Cluster) (trace : List Exchanged) (effect : Effect) :
    world cluster effect (serve smallServer cluster trace effect).1
      (serve smallServer cluster trace effect).2 := by
  cases effect with
  | get document =>
      refine ⟨rfl, Or.inr ⟨_, answer_eq_ok.mpr ⟨smallAnswers_not_exceeds _ _, rfl⟩, ?_⟩⟩
      cases (cluster document).current with
      | none => trivial
      | some stored => exact ⟨rfl, rfl, rfl⟩
  | write document object =>
      show (_ ∧ _) ∨ _
      dsimp only [serve]
      split
      · rename_i hadmits
        exact Or.inr ⟨hadmits, unused cluster document, unused_not_mem cluster document, rfl⟩
      · exact Or.inl ⟨rfl, _, rfl⟩

/-- Until something is written a pass reads what was there, and what was there stays. -/
theorem alone_serve {α : Type} (server : ApiServer) (cluster : Cluster)
    (trace : List Exchanged) (process : Process Effect.Answer α) :
    ∃ more, (Process.alone (serve server) cluster trace process).2.1 = trace ++ more ∧
      (∀ document answer, (⟨.get document, answer⟩ : Exchanged) ∈ more.takeWhile isGet →
        answer = server.answer cluster document) ∧
        (more.any isWrite = false →
          (Process.alone (serve server) cluster trace process).1 = cluster) := by
  induction process generalizing cluster trace with
  | done value => exact ⟨[], (List.append_nil _).symm, fun _ _ h => absurd h List.not_mem_nil,
      fun _ => rfl⟩
  | perform effect next ih =>
      cases effect with
      | get document =>
          obtain ⟨more, htrace, hreads, hkept⟩ := ih (server.answer cluster document) cluster
            (trace ++ [⟨.get document, server.answer cluster document⟩])
          refine ⟨⟨.get document, _⟩ :: more, htrace.trans (List.append_assoc _ _ _), ?_, hkept⟩
          intro other answer hmem
          rcases List.mem_cons.mp hmem with heq | hlater
          · cases heq
            rfl
          · exact hreads other answer hlater
      | write document object =>
          obtain ⟨more, htrace, -, -⟩ := ih _
            (serve server cluster trace (.write document object)).1
            (trace ++ [⟨.write document object,
              (serve server cluster trace (.write document object)).2⟩])
          refine ⟨⟨.write document object, _⟩ :: more, htrace.trans (List.append_assoc _ _ _), ?_, ?_⟩
          · exact fun _ _ hmem => absurd hmem List.not_mem_nil
          · exact fun hnone => absurd hnone nofun

/-- Three reads of what is there are read as that. -/
theorem Planning.readAll {server : ApiServer} {cluster : Cluster} {reads : Reads}
    {trace : List Exchanged}
    (h : Planning codecs reads (trace.take 3))
    (hanswers : ∀ document answer, (⟨.get document, answer⟩ : Exchanged) ∈ trace.takeWhile isGet →
      answer = server.answer cluster document) :
    Kubernetes.readAll codecs server cluster = .ok reads := by
  obtain ⟨tenants, dataSources, catalog, htake, htenants, hdataSources, hcatalog⟩ := h
  rw [← List.take_append_drop 3 trace, htake] at hanswers
  have hread : ∀ {document found}, (⟨.get document, .ok found⟩ : Exchanged) ∈
      ([⟨.get .tenants, .ok tenants⟩, ⟨.get .dataSources, .ok dataSources⟩,
        ⟨.get .catalog, .ok catalog⟩] : List Exchanged) →
      server.answer cluster document = .ok found := by
    intro document found hmem
    refine (hanswers document (.ok found) ?_).symm
    rw [List.takeWhile_append_of_pos (by simp [isGet])]
    exact List.mem_append_left _ hmem
  refine readAll_eq_ok.mpr fun document => ?_
  unfold readServed
  cases document with
  | tenants =>
      rw [hread List.mem_cons_self]
      exact htenants
  | dataSources =>
      rw [hread (List.mem_cons_of_mem _ List.mem_cons_self)]
      exact hdataSources
  | catalog =>
      rw [hread (List.mem_cons_of_mem _ (List.mem_cons_of_mem _ List.mem_cons_self))]
      exact hcatalog

/-- A pass that is alone, and changes the registry alone, writes without having confirmed what it
leaves. -/
theorem exists_unconfirmed {first : DocumentKind → Option Stored} {namespaceName : String}
    {snapshot : RuntimeSnapshot} {reads : Reads} {plan : PublicationPlan}
    (haccepted : accepted codecs smallServer namespaceName snapshot (Cluster.holding first) =
      .ok (reads, plan))
    (honly : RegistryOnly plan) :
    ∃ configuration, (publishers codecs).Runs ⟨Cluster.holding first, []⟩ configuration ∧
      ∃ pass ∈ configuration.operations, ¬ConfirmedFirst codecs pass := by
  have hruns := Process.runs_alone world_serve ⟨namespaceName, snapshot⟩
    (Relation.ReflTransGen.refl : (publishers codecs).Runs ⟨Cluster.holding first, []⟩ _)
  refine ⟨_, hruns, _, List.mem_cons_self, fun hconfirmed => ?_⟩
  obtain ⟨more, htrace, hanswers, hkept⟩ := alone_serve smallServer (Cluster.holding first) []
    (publish codecs namespaceName snapshot).run
  rw [List.nil_append] at htrace
  -- It wrote: what is there is no longer what was there.
  have hwrites : more.any isWrite = true := by
    by_contra hnone
    have hsame : published codecs smallServer namespaceName reads plan 3 (Cluster.holding first) =
        Cluster.holding first :=
      (leads_publish smallServer haccepted).answer.1.symm.trans (hkept (Bool.not_eq_true _ ▸ hnone))
    have hlength := length_published haccepted .tenants
      (outcome_tenantsObjectPlan.mpr (Or.inr (Or.inr honly.2)))
    rw [hsame] at hlength
    exact absurd hlength (Nat.succ_ne_self _).symm
  obtain ⟨found, planned, hwrote, hiff⟩ := exists_wrote hruns List.mem_cons_self
    (by rw [← hwrites, ← htrace])
  -- What it read and planned is what is accepted.
  obtain ⟨hreads, hplan, -⟩ := accepted_eq_ok.mp haccepted
  have hfetched : Planning codecs found (more.take 3) := htrace ▸ hwrote.fetched
  have hfound : found = reads := Except.ok.inj ((hfetched.readAll hanswers).symm.trans hreads)
  subst hfound
  have hplanned : planned = plan := Except.ok.inj (hwrote.planned.symm.trans hplan)
  subst hplanned
  obtain ⟨_, _, hown, hall⟩ := hconfirmed hwrote.written
  obtain ⟨rfl, rfl⟩ := hown.unique hwrote
  exact hiff.mp hall honly

/-- A registry of no issuers, as it is published. -/
def registryText : String := "\x7b" ++
  "\n  \"schemaVersion\": 1,\n  \"generation\": 1,\n  \"issuers\": []\n" ++ "\x7d"

def registryDigest : Runtime.RecordDigest :=
  ⟨0xfdd85edfa0018a645cd8af78238dddf1ca01f1da092ac32fb8a200b4f6213521⟩

/-- The record of a catalogue beside that registry. -/
def registeredRecord : PublicationRecord :=
  (bareRecord 1 1 ordersDigest).withRegistry
    (some ⟨RegistryGeneration.FIRST, toString registryDigest⟩)

/-- That record, as it is published. -/
def registeredRecordText : String := "\x7b" ++
  ("\n  \"contract_version\": 3,\n  \"minimum_reader_contract\": 1," ++
    "\n  \"minimum_publisher_contract\": 3,\n  \"generation\": 1" ++
    (",\n  \"documents\": \x7b\n    \"tenants\": \x7b\n      \"revision\": 1," ++
      "\n      \"sha256\": \"" ++ toString emptyDigest ++
      "\"\n    \x7d,\n    \"data-sources\": \x7b\n      \"revision\": 1," ++
      "\n      \"sha256\": \"" ++ toString emptyDigest ++
      "\"\n    \x7d,\n    \"catalog\": \x7b\n      \"revision\": 1," ++
      "\n      \"sha256\": \"" ++ toString ordersDigest ++
      "\"\n    \x7d\n  \x7d,\n  \"resources\": \x7b\n    \"tenants\": \x7b\x7d," ++
      "\n    \"data-sources\": \x7b\x7d\n  \x7d,\n  \"registry\": \x7b\n    \"generation\": 1," ++
      "\n    \"sha256\": \"" ++ toString registryDigest ++ "\"\n  \x7d\n")) ++ "\x7d"

/-- What serde writes of them, and what its digests are. -/
def registeredSamples : Samples where
  digests :=
    [("[]\n", emptyDigest), (ordersText ++ "\n", ordersDigest),
      (registryText ++ "\n", registryDigest),
      (registeredRecordText ++ "\n",
        ⟨0x5f29f5c4bd75e27515d42677c34e97b0d2d2c11d59308c611a69074b84601b61⟩)]
  tenants := .one [] ("[" ++ "" ++ "]").toUTF8 (Library.isSample_brackets "")
  dataSources := .one [] ("[" ++ "" ++ "]").toUTF8 (Library.isSample_brackets "")
  catalog := catalogues
  manifest := firstManifests
  record := .one registeredRecord registeredRecordText.toUTF8 (Library.isSample_braces _)
  registry := .one ⟨REGISTRY_SCHEMA_VERSION, RegistryGeneration.FIRST, []⟩ registryText.toUTF8
    (Library.isSample_braces _)

/-- The objects that catalogue and that registry were published to, once the registry was lost. -/
def lostRegistry (document : DocumentKind) : Option Stored :=
  some (bareObject (manifestText "tenants" "1" ++ "\n") (registeredRecordText ++ "\n") document)

/-- The catalogue and the registry, offered again. -/
def registeredSnapshot : RuntimeSnapshot :=
  { bareSnapshot ordersCatalog 1 with registry := some [] }

noncomputable def registeredPlan : PublicationPlan where
  dataSources := ⟨.unchanged, lineOf "[]", 1⟩
  catalog := ⟨.unchanged, lineOf ordersText, 1⟩
  tenants := ⟨.unchanged, lineOf "[]", 1⟩
  registry := some ⟨.written, ⟨REGISTRY_SCHEMA_VERSION, RegistryGeneration.FIRST, []⟩,
    lineOf registryText⟩
  record := ⟨.unchanged, registeredRecord, lineOf registeredRecordText,
    ⟨1, registeredSamples.codecs.sha256 (lineOf registeredRecordText)⟩⟩

theorem registeredSamples_empty (revision : DocumentRevision) :
    RecordedDocument.of registeredSamples.codecs revision (lineOf "[]") =
      ⟨revision, toString emptyDigest⟩ :=
  Samples.recordedDocument_of emptyDigest (by decide +kernel)

theorem registeredSamples_orders (revision : DocumentRevision) :
    RecordedDocument.of registeredSamples.codecs revision (lineOf ordersText) =
      ⟨revision, toString ordersDigest⟩ :=
  Samples.recordedDocument_of ordersDigest (by decide +kernel)

theorem registeredSamples_registry :
    registeredSamples.codecs.sha256Hex (lineOf registryText) = toString registryDigest := by
  have hdigest : tabled registeredSamples.digests ⟨0⟩ (lineOf registryText) = registryDigest := by
    decide +kernel
  rw [← hdigest]
  rfl

/-- The registry is rendered as it was published. -/
theorem render_registry : render registeredSamples.codecs RegistryGeneration.FIRST [] =
    .ok (⟨REGISTRY_SCHEMA_VERSION, RegistryGeneration.FIRST, []⟩, lineOf registryText) := by
  refine render_eq_ok.mpr ⟨?_, Sample.line_of_mem List.mem_cons_self⟩
  unfold IssuerRegistryDocument.new
  rw [List.mergeSort_nil]
  rfl

/-- Only the registry is planned to be written. -/
theorem planned_lostRegistry : planPublication registeredSamples.codecs registeredSnapshot
    (Platform.bareHeld (lineOf ordersText) (lineOf registeredRecordText)) = .ok registeredPlan := by
  have hline : registeredSamples.codecs.record.line registeredRecord =
      .ok (lineOf registeredRecordText) := Sample.line_of_mem List.mem_cons_self
  have htenants : tenantsCanonicalJson registeredSamples.codecs [] = .ok (lineOf "[]") := by
    show registeredSamples.tenants.codec.line (List.mergeSort [] _) = _
    rw [List.mergeSort_nil]
    exact Sample.line_of_mem List.mem_cons_self
  have hdataSources : dataSourcesCanonicalJson registeredSamples.codecs [] = .ok (lineOf "[]") := by
    show registeredSamples.dataSources.codec.line (List.mergeSort [] _) = _
    rw [List.mergeSort_nil]
    exact Sample.line_of_mem List.mem_cons_self
  have hcatalog : registeredSamples.codecs.catalog.line ordersCatalog = .ok (lineOf ordersText) :=
    Sample.line_of_mem List.mem_cons_self
  have hreads : ReadsAs registeredSamples.codecs
      (Platform.bareHeld (lineOf ordersText) (lineOf registeredRecordText)) (some registeredRecord)
      ⟨[], [], (registeredSamples.codecs.catalog.read (lineOf ordersText)).toOption,
        registeredRecord.resources.including [] []⟩ := by
    refine ⟨?_, ?_, ?_, rfl, rfl⟩
    · show some <$> PublicationRecord.parseHeld _ _ = _
      rw [PublicationRecord.parseHeld_line registeredSamples.lawful rfl hline]
      rfl
    · exact parseHeldDocuments_payload registeredSamples.lawful.tenants
        (Sample.line_of_mem List.mem_cons_self) rfl
    · exact parseHeldDocuments_payload registeredSamples.lawful.dataSources
        (Sample.line_of_mem List.mem_cons_self) rfl
  have hbare : Validated (bareSnapshot ordersCatalog 1) [] [] := bareSnapshot_validated (by decide) 1
  have hvalid : Validated registeredSnapshot [] [] := ⟨hbare.catalog, hbare.bound, hbare.entries,
    hbare.carried, hbare.retained, hbare.tenants, hbare.dataSources⟩
  have hgeneration : generationFor registeredSamples.codecs registeredRecord.registry none [] =
      .ok RegistryGeneration.FIRST := by
    -- The record names the first generation, and the registry offered is the one it digests.
    have hkept : keptRecorded registeredSamples.codecs registeredRecord.registry none [] =
        .ok (some RegistryGeneration.FIRST) := by
      refine bind_eq_ok.mpr ⟨_, render_registry, ?_⟩
      rw [registeredSamples_registry]
      exact congrArg Except.ok (if_pos rfl)
    refine bind_eq_ok.mpr ⟨none, rfl, ?_⟩
    refine bind_eq_ok.mpr ⟨_, hkept, rfl⟩
  refine (planPublication_eq_ok registeredSamples.lawful).mpr
    ⟨_, _, hreads, hvalid, ?_, ?_, ?_, ?_, ?_, ?_⟩
  · show decideDocument _ _ _ (dataSourcesCanonicalJson registeredSamples.codecs []) = _
    rw [hdataSources]
    exact Platform.decideDocument_of_same
  · show decideDocument _ _ _ (registeredSamples.codecs.catalog.line ordersCatalog) = _
    rw [hcatalog]
    exact Platform.decideDocument_of_same
  · show decideDocument _ _ _ (tenantsCanonicalJson registeredSamples.codecs []) = _
    rw [htenants]
    exact Platform.decideDocument_of_same
  · exact ⟨fun _ h => absurd h List.not_mem_nil, fun _ h => absurd h List.not_mem_nil,
      Or.inr fun _ h => absurd h List.not_mem_nil⟩
  · exact decideRegistry_eq_ok.mpr (Or.inr ⟨[], _, _, _, rfl, fun _ h => absurd h List.not_mem_nil,
      hgeneration, render_registry, rfl⟩)
  · have hrecorded : RegistryPlan.recorded registeredSamples.codecs ⟨.written,
        ⟨REGISTRY_SCHEMA_VERSION, RegistryGeneration.FIRST, []⟩, lineOf registryText⟩ =
          ⟨RegistryGeneration.FIRST, toString registryDigest⟩ := by
      unfold RegistryPlan.recorded
      rw [registeredSamples_registry]
    have hsame : (PublicationRecord.new registeredRecord.generation
        ⟨⟨1, toString emptyDigest⟩, ⟨1, toString emptyDigest⟩, ⟨1, toString ordersDigest⟩⟩
        ResourceHistory.empty).withRegistry
          (some ⟨RegistryGeneration.FIRST, toString registryDigest⟩) = registeredRecord := rfl
    have hchosen : chooseRecord (some (registeredRecord, lineOf registeredRecordText))
        (recordedDocuments registeredSamples.codecs registeredPlan.dataSources
          registeredPlan.catalog registeredPlan.tenants) ResourceHistory.empty
        (registeredPlan.registry.map (RegistryPlan.recorded registeredSamples.codecs)) =
          (.unchanged, registeredRecord, some (lineOf registeredRecordText)) := by
      unfold recordedDocuments registeredPlan
      dsimp only [Option.map_some]
      rw [registeredSamples_empty, registeredSamples_orders, hrecorded]
      unfold chooseRecord
      dsimp only
      rw [if_pos hsame]
    exact decideRecord_of_unchanged hchosen hline

theorem accepted_lostRegistry : accepted registeredSamples.codecs smallServer "saas-fabric"
    registeredSnapshot (Cluster.holding lostRegistry) =
      .ok (bareReads (lineOf registeredRecordText), registeredPlan) := by
  have hline : ∀ {document : DocumentKind} {text : String},
      (DocumentManifest.new document 1, text.toUTF8) ∈ firstManifests.entries →
        registeredSamples.codecs.manifest.line (.new document 1) = .ok (text ++ "\n").toUTF8 := by
    intro document text hmem
    rw [← lineOf_eq]
    exact Sample.line_of_mem hmem
  refine accepted_eq_ok.mpr ⟨?_, planned_lostRegistry, fun document => ?_⟩
  · rw [lineOf_eq]
    exact readAll_bareCluster rfl
      (registeredSamples.lawful.manifest.read_line (hline List.mem_cons_self))
  · cases document with
    | dataSources =>
        exact exists_configMap (objectOf registeredPlan _ .dataSources) ("[]" ++ "\n")
          (manifestText "data-sources" "1" ++ "\n") [] (lineOf_eq "[]")
          (hline (List.mem_cons_of_mem _ List.mem_cons_self)) rfl (by decide +kernel)
    | catalog =>
        exact exists_configMap (objectOf registeredPlan _ .catalog) (ordersText ++ "\n")
          (manifestText "catalog" "1" ++ "\n") [] (lineOf_eq ordersText)
          (hline (List.mem_cons_of_mem _ (List.mem_cons_of_mem _ List.mem_cons_self))) rfl
          (by decide +kernel)
    | tenants =>
        refine exists_configMap (objectOf registeredPlan (bareReads _) .tenants) ("[]" ++ "\n")
          (manifestText "tenants" "1" ++ "\n")
          [(PUBLICATION_RECORD_FILE, registeredRecordText ++ "\n"),
            (ISSUER_REGISTRY_FILE, registryText ++ "\n")]
          (lineOf_eq "[]") (hline List.mem_cons_self) ?_ (by decide +kernel)
        rw [List.map_cons, List.map_cons, List.map_nil, ← lineOf_eq, ← lineOf_eq]
        rfl

/-- A registry that was lost is written with nothing confirmed. -/
theorem lost_registry_is_written_unconfirmed : ∃ configuration,
    (publishers registeredSamples.codecs).Runs ⟨Cluster.holding lostRegistry, []⟩ configuration ∧
      ¬(Uncorrupted registeredSamples.codecs configuration.shared ∧
        ∀ pass ∈ configuration.operations, ConfirmedFirst registeredSamples.codecs pass) := by
  obtain ⟨configuration, hruns, pass, hpass, hnot⟩ :=
    exists_unconfirmed accepted_lostRegistry ⟨⟨rfl, rfl, rfl, rfl⟩, rfl⟩
  exact ⟨configuration, hruns, fun h => hnot (h.2 pass hpass)⟩

/-! ## Two publishers of one catalogue -/

section Overtaken

variable {first : DocumentKind → Option Stored} {namespaceName : String}
  {snapshot : RuntimeSnapshot} {reads : Reads} {plan : PublicationPlan}

/-- Only where it offers a registry does a pass change one. -/
theorem not_wroteRegistryOnly {pass : Publisher} (h : pass.call.snapshot.registry = none)
    (hlawful : codecs.Lawful) : ¬WroteRegistryOnly codecs pass := by
  rintro ⟨reads, plan, hwrote, -, hregistry⟩
  obtain ⟨_, _, hplanned⟩ := (planPublication_eq_ok hlawful).mp hwrote.planned
  rcases decideRegistry_eq_ok.mp hplanned.registry with ⟨-, -, hnone⟩ | ⟨_, _, _, _, hsome, -⟩
  · unfold registryWritten at hregistry
    rw [hnone] at hregistry
    cases hregistry
  · rw [h] at hsome
    cases hsome

/-- What a pass left of the tenants object is at another version. -/
theorem exists_moved (hlawful : codecs.Lawful)
    (haccepted : accepted codecs smallServer namespaceName snapshot (Cluster.holding first) =
      .ok (reads, plan))
    (hwritten : (tenantsObjectPlan plan).outcome = .written) :
    ∃ read, readServed codecs smallServer (published codecs smallServer namespaceName reads plan 3
        (Cluster.holding first)) .tenants = .ok read ∧
      read.resourceVersion ≠ reads.tenants.resourceVersion := by
  obtain ⟨hreads, hplan, -⟩ := accepted_eq_ok.mp haccepted
  obtain ⟨made, hmade⟩ := exists_sent haccepted .tenants
  have hstored := (readServed_eq_ok.mp (readAll_eq_ok.mp hreads .tenants)).2
  -- The two objects before it are others.
  let before := published codecs smallServer namespaceName reads plan 2 (Cluster.holding first)
  have hbefore : before .tenants = Cluster.holding first .tenants := published_tenants
  have hafter : published codecs smallServer namespaceName reads plan 3 (Cluster.holding first)
      .tenants = (before .tenants).append ⟨unused before .tenants, made.data⟩ := by
    show afterWrite codecs smallServer namespaceName before (objectOf plan reads .tenants)
      .tenants = _
    unfold afterWrite
    rw [show (objectOf plan reads .tenants).plan.outcome = .written from hwritten, hmade]
    exact if_pos rfl
  have hcurrent : (published codecs smallServer namespaceName reads plan 3 (Cluster.holding first)
      .tenants).current = some ⟨unused before .tenants, made.data⟩ := by
    rw [hafter]
    unfold History.current History.append
    rw [List.getLast?_concat]
    rfl
  have hfrom : MadeFrom codecs .tenants (Cluster.holding first .tenants).current
      ⟨unused before .tenants, made.data⟩ snapshot reads plan :=
    ⟨hstored, hplan, hwritten, namespaceName, _, made, hmade, rfl⟩
  refine ⟨⟨⟨some (objectOf plan reads .tenants).manifest, some (plan.document .tenants).bytes⟩,
    some (unused before .tenants), bytesAt made.data PUBLICATION_RECORD_FILE,
    bytesAt made.data ISSUER_REGISTRY_FILE⟩,
    readServed_eq_ok.mpr ⟨smallAnswers_not_exceeds _ _, ?_⟩, ?_⟩
  · rw [hcurrent]
    exact readStored_some.mpr ⟨hfrom.held hlawful, rfl, rfl, rfl⟩
  · show some (unused before .tenants) ≠ (reads.of .tenants).resourceVersion
    rw [version_of_readStored hstored, ← hbefore]
    intro hsame
    obtain ⟨stored, hmem, hversion⟩ := Option.map_eq_some_iff.mp hsame.symm
    exact unused_not_mem before .tenants
      (List.mem_map.mpr ⟨stored, current_mem_versions hmem, hversion⟩)

/-- An object whose own document is unchanged is read as it was. -/
theorem readServed_of_unchanged
    (hreads : readAll codecs smallServer (Cluster.holding first) = .ok reads)
    {document : DocumentKind} (hne : document ≠ .tenants)
    (hunchanged : (plan.document document).outcome = .unchanged) :
    readServed codecs smallServer (published codecs smallServer namespaceName reads plan 3
      (Cluster.holding first)) document = .ok (reads.of document) := by
  have hown : (objectOf plan reads document).plan.outcome = .unchanged := by
    cases document with
    | tenants => exact absurd rfl hne
    | dataSources => exact hunchanged
    | catalog => exact hunchanged
  have hother : ∀ (state : Cluster) (other : DocumentKind),
      afterWrite codecs smallServer namespaceName state (objectOf plan reads other) document =
        state document := by
    intro state other
    by_cases heq : other = document
    · unfold afterWrite
      rw [heq, hown]
    · refine afterWrite_other fun hdocument => heq ?_
      rw [hdocument, document_objectOf]
  have hsame : published codecs smallServer namespaceName reads plan 3 (Cluster.holding first)
      document = Cluster.holding first document := by
    show afterWrite _ _ _ (afterWrite _ _ _ (afterWrite _ _ _ _
      (objectOf plan reads .dataSources)) (objectOf plan reads .catalog))
        (objectOf plan reads .tenants) document = _
    rw [hother, hother, hother]
  have hbefore := (readServed_eq_ok.mp (readAll_eq_ok.mp hreads document)).2
  rw [← hsame] at hbefore
  exact readServed_eq_ok.mpr ⟨smallAnswers_not_exceeds _ _, hbefore⟩

/-- What is read again as it was read before is confirmed. -/
theorem answers_confirmUnmoved {cluster : Cluster} {document : DocumentKind} {read : Read}
    (h : readServed codecs smallServer cluster document = .ok read) :
    Answers smallServer cluster (confirmUnmoved codecs document read) (.ok ()) := by
  have hanswers : Answers smallServer cluster (readOne codecs document) (.ok read) :=
    h ▸ answers_readOne document
  refine Leads.bind hanswers ?_
  rw [if_pos rfl]
  exact answers_pure ()

/-- What is read again at another version is not. -/
theorem answers_confirmMoved {cluster : Cluster} {document : DocumentKind} {before read : Read}
    (h : readServed codecs smallServer cluster document = .ok read)
    (hmoved : read.resourceVersion ≠ before.resourceVersion) :
    Answers smallServer cluster (confirmUnmoved codecs document before)
      (.error (moved document)) := by
  have hanswers : Answers smallServer cluster (readOne codecs document) (.ok read) :=
    h ▸ answers_readOne document
  refine Leads.bind hanswers ?_
  rw [if_neg hmoved]
  exact answers_settle _

/-- A pass that was planned before another one was carried out does not confirm the tenants it
leaves. -/
theorem answers_confirmOvertaken (hlawful : codecs.Lawful)
    (haccepted : accepted codecs smallServer namespaceName snapshot (Cluster.holding first) =
      .ok (reads, plan))
    (hrecord : plan.record.outcome = .written) (htenants : plan.tenants.outcome = .unchanged) :
    Answers smallServer (published codecs smallServer namespaceName reads plan 3
        (Cluster.holding first))
      (confirmReadOnlyUnmoved codecs plan reads) (.error (moved .tenants)) := by
  obtain ⟨hreads, -, -⟩ := accepted_eq_ok.mp haccepted
  obtain ⟨read, hread, hmoved⟩ := exists_moved hlawful haccepted
    (outcome_tenantsObjectPlan.mpr (Or.inr (Or.inl hrecord)))
  have hleaves : ¬LeavesDocuments plan := by
    rintro ⟨hunchanged, -⟩
    rw [hrecord] at hunchanged
    cases hunchanged
  unfold confirmReadOnlyUnmoved
  rw [if_neg hleaves]
  have hchecks : (reliedOn plan reads).forM (fun entry =>
      if entry.1 = .tenants then .error (moved .tenants) else
        (.ok () : Except PublicationError Unit)) = .error (moved .tenants) := rfl
  rw [← hchecks]
  apply answers_forM
  intro entry hentry
  unfold reliedOn at hentry
  simp only [List.mem_cons, List.not_mem_nil, or_false] at hentry
  rcases hentry with rfl | rfl | rfl
  · dsimp only
    split
    · exact answers_confirmUnmoved (readServed_of_unchanged hreads (by decide) ‹_›)
    · exact answers_pure ()
  · dsimp only
    split
    · exact answers_confirmUnmoved (readServed_of_unchanged hreads (by decide) ‹_›)
    · exact answers_pure ()
  · dsimp only
    rw [htenants]
    exact answers_confirmMoved hread hmoved

/-- A pass that was planned before another one was carried out is refused where it leaves the
tenants. -/
theorem answers_overtaken (hlawful : codecs.Lawful)
    (haccepted : accepted codecs smallServer namespaceName snapshot (Cluster.holding first) =
      .ok (reads, plan))
    (hrecord : plan.record.outcome = .written) (htenants : plan.tenants.outcome = .unchanged) :
    Answers smallServer (published codecs smallServer namespaceName reads plan 3
        (Cluster.holding first))
      (settle (planPublication codecs snapshot reads.held) >>=
        fun plan => carryOut codecs namespaceName plan reads) (.error (moved .tenants)) := by
  obtain ⟨-, hplan, -⟩ := accepted_eq_ok.mp haccepted
  have hconfirm := answers_confirmOvertaken hlawful haccepted hrecord htenants
  generalize published codecs smallServer namespaceName reads plan 3 (Cluster.holding first) =
    cluster at hconfirm ⊢
  have hplanned : Answers smallServer cluster (settle (planPublication codecs snapshot reads.held))
      (.ok plan) := hplan ▸ answers_settle _
  have hcheck : Answers smallServer cluster ((objects plan (tenantsObjectPlan plan) reads).forM
      (checkObject codecs namespaceName)) (.ok ()) :=
    checkAll_of_accepted haccepted ▸ answers_check _
  exact Leads.bind hplanned (Leads.bind hcheck (Leads.bind_error hconfirm rfl))

/-- Two passes read the same: one is carried out, and then the other one is refused. -/
theorem exists_overtaken (hlawful : codecs.Lawful)
    (haccepted : accepted codecs smallServer namespaceName snapshot (Cluster.holding first) =
      .ok (reads, plan))
    (hrecord : plan.record.outcome = .written) (htenants : plan.tenants.outcome = .unchanged) :
    ∃ trace overtaken, (publishers codecs).Runs ⟨Cluster.holding first, []⟩
      ⟨published codecs smallServer namespaceName reads plan 3 (Cluster.holding first),
        [⟨⟨namespaceName, snapshot⟩, some (Cluster.holding first), trace, .done (.ok plan.report)⟩,
          ⟨⟨namespaceName, snapshot⟩, some (Cluster.holding first), overtaken,
            .done (.error (moved .tenants))⟩]⟩ := by
  obtain ⟨hreads, -, -⟩ := accepted_eq_ok.mp haccepted
  let call : Call := ⟨namespaceName, snapshot⟩
  have hstart : (publishers codecs).Runs ⟨Cluster.holding first, []⟩ ⟨Cluster.holding first, []⟩ :=
    Relation.ReflTransGen.refl
  have hbegun := (hstart.begun ⟨call, none, [], (publish codecs namespaceName snapshot).run⟩
    rfl).moved .begin
  -- One has read the three objects when the other begins.
  obtain ⟨fetched, hfetched⟩ := (hreads ▸ answers_fetch : Answers smallServer
    (Cluster.holding first) (fetch codecs) (.ok reads)).outcome []
  have hread := @Process.runs_bind _ _ _ _ _ _ _ _ _ _ world_serve _ call (Cluster.holding first)
    [] [] _ (fetch codecs).run (ExceptT.bindCont fun reads =>
      settle (planPublication codecs snapshot reads.held) >>= fun plan =>
        carryOut codecs namespaceName plan reads) hbegun
  unfold outcomeOf at hfetched
  rw [hfetched] at hread
  have halone := Process.runs_alone world_serve call hread
  obtain ⟨trace, htrace⟩ := (leads_publish smallServer haccepted).outcome []
  unfold outcomeOf at htrace
  rw [htrace] at halone
  obtain ⟨overtaken, hovertaken⟩ :=
    (answers_overtaken hlawful haccepted hrecord htenants).outcome fetched
  unfold outcomeOf at hovertaken
  have hboth : (publishers codecs).Runs ⟨Cluster.holding first, []⟩
      ⟨published codecs smallServer namespaceName reads plan 3 (Cluster.holding first),
        [⟨call, some (Cluster.holding first), trace, .done (.ok plan.report)⟩] ++
          ⟨call, some (Cluster.holding first), fetched,
            (settle (planPublication codecs snapshot reads.held) >>=
              fun plan => carryOut codecs namespaceName plan reads).run⟩ :: []⟩ := halone
  have hruns := Process.runs_on world_serve hboth
  rw [hovertaken] at hruns
  exact ⟨trace, overtaken, hruns⟩

end Overtaken

/-- The objects a catalogue was published to. -/
def ordersObjects (document : DocumentKind) : Option Stored :=
  some (bareObject (manifestText "tenants" "1" ++ "\n")
    (bareRecordText "1" "1" ordersDigest ++ "\n") document)

/-- Two publishers of another catalogue keep its history: one of them writes what it changes, having
read again what it leaves, and the other one, which had read the same, writes nothing. -/
theorem two_publishers_keep_history : ∃ configuration,
    (publishers bareSamples.codecs).Runs ⟨Cluster.holding ordersObjects, []⟩ configuration ∧
      configuration.operations.map Process.Session.rest =
        [.done (.ok readOnlyPlan.report), .done (.error (moved .tenants))] ∧
      ((configuration.shared .catalog).written.length = 1 ∧
        (configuration.shared .tenants).written.length = 1) ∧
      Uncorrupted bareSamples.codecs configuration.shared ∧
        ∀ pass ∈ configuration.operations, ConfirmedFirst bareSamples.codecs pass := by
  have haccepted : accepted bareSamples.codecs smallServer "saas-fabric"
      (bareSnapshot readOnlyCatalog 2) (Cluster.holding ordersObjects) =
        .ok (bareReads (lineOf (bareRecordText "1" "1" ordersDigest)), readOnlyPlan) :=
    accepted_readOnly (bareSamples.lawful.manifest.read_line
      (manifestLine_bareSamples List.mem_cons_self))
  obtain ⟨trace, overtaken, hruns⟩ :=
    exists_overtaken bareSamples.lawful haccepted rfl rfl
  refine ⟨_, hruns, rfl, ⟨?_, ?_⟩, (publishers_keep_history bareSamples.lawful hruns).mpr ?_⟩
  · exact length_published haccepted .catalog rfl
  · exact length_published haccepted .tenants
      (outcome_tenantsObjectPlan.mpr (Or.inr (Or.inl rfl)))
  · intro pass hpass
    refine not_wroteRegistryOnly ?_ bareSamples.lawful
    simp only [List.mem_cons, List.not_mem_nil, or_false] at hpass
    rcases hpass with rfl | rfl <;> rfl

end Kubernetes
end SaasFabric
