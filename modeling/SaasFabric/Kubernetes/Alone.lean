import SaasFabric.Kubernetes.Version

/-!
# A publisher by itself

What a pass comes to where no other publisher writes and every request arrives: what it reads,
whether it is refused, and what the objects are after each of its writes.
-/

namespace SaasFabric
namespace Kubernetes

open Library
open Publication

/-- The error of a write over another version. -/
def conflict (document : DocumentKind) : PublicationError :=
  .unwritable document
    "another writer changed the published document; the next pass re-reads it"

/-- `RESPONSE_CAP`. -/
def RESPONSE_CAP : Nat := 2 * 1024 * 1024

/-- The error of an answer that is too large. -/
def overResponse (document : DocumentKind) : PublicationError :=
  .unreadable document "the published document exceeded its size limit"

/-- An API server that every request arrives at: the versions it gives, and how many bytes it
answers an object in. -/
structure ApiServer where
  version : Cluster → DocumentKind → String
  size : Cluster → DocumentKind → Nat

namespace ApiServer

variable (server : ApiServer)

/-- What `Client::get` makes of the answer: `read_body` gives up over the cap. -/
def answer (cluster : Cluster) (document : DocumentKind) :
    Except PublicationError (Option ConfigMap) :=
  match (cluster document).current with
  | none => .ok none
  | some stored =>
      if RESPONSE_CAP < server.size cluster document then
        .error (overResponse document)
      else
        .ok (some (stored.configMap document))

/-- An object is there that is answered in too many bytes. -/
def Exceeds (cluster : Cluster) (document : DocumentKind) : Prop :=
  (cluster document).current.isSome ∧ RESPONSE_CAP < server.size cluster document

end ApiServer

/-- What an API server answers, with the versions it gives. -/
def serve (server : ApiServer) (cluster : Cluster)
    (_ : List Exchanged) : (effect : Effect) → Cluster × effect.Answer
  | .get document => (cluster, server.answer cluster document)
  | .write document object =>
      if (cluster document).current.map Stored.resourceVersion =
          object.metadata.resourceVersion then
        (cluster.append document ⟨server.version cluster document, object.data⟩, .ok ())
      else
        (cluster, .error (conflict document))

variable (codecs : Codecs) (server : ApiServer)

/-- What is read of one object. -/
def readServed (cluster : Cluster) (document : DocumentKind) : Except PublicationError Read := do
  let found ← server.answer cluster document
  readFound codecs found document

/-- What is read of the three objects. -/
def readAll (cluster : Cluster) : Except PublicationError Reads := do
  let tenants ← readServed codecs server cluster .tenants
  let dataSources ← readServed codecs server cluster .dataSources
  let catalog ← readServed codecs server cluster .catalog
  return { tenants, dataSources, catalog }

/-- What a pass comes to from what is there: what is there then, and its result. -/
def outcomeOf {α : Type} (cluster : Cluster) (trace : List Exchanged) (pass : Pass α) :
    Cluster × List Exchanged × Except PublicationError α :=
  Process.alone (serve server) cluster trace pass.run

/-- What is there as a pass begins and after each of its requests. -/
def statesOf {α : Type} (cluster : Cluster) (trace : List Exchanged) (pass : Pass α) :
    List Cluster :=
  Process.states (serve server) cluster trace pass.run

variable {codecs server} {α β : Type} {cluster : Cluster} {trace : List Exchanged}
  {document : DocumentKind}

theorem outcomeOf_bind {first : Pass α} {rest : α → Pass β} :
    outcomeOf server cluster trace (first >>= rest) =
      match outcomeOf server cluster trace first with
      | (next, more, .ok value) => outcomeOf server next more (rest value)
      | (next, more, .error error) => (next, more, .error error) := by
  show Process.alone (serve server) cluster trace (first.run >>= ExceptT.bindCont rest) = _
  rw [Process.alone_bind]
  unfold outcomeOf
  obtain ⟨next, more, result⟩ := Process.alone (serve server) cluster trace first.run
  cases result <;> rfl

theorem mem_statesOf_bind {first : Pass α} {rest : α → Pass β} {state : Cluster} :
    state ∈ statesOf server cluster trace (first >>= rest) ↔
      state ∈ statesOf server cluster trace first ∨
        match outcomeOf server cluster trace first with
        | (next, more, .ok value) => state ∈ statesOf server next more (rest value)
        | (next, _, .error _) => state = next := by
  show state ∈ Process.states (serve server) cluster trace
    (first.run >>= ExceptT.bindCont rest) ↔ _
  rw [Process.mem_states_bind]
  unfold outcomeOf
  obtain ⟨next, more, result⟩ := Process.alone (serve server) cluster trace first.run
  cases result with
  | ok value => exact Iff.rfl
  | error error => exact or_congr_right List.mem_singleton

/-- A pass comes to a result and leaves something, and what is there along it is among some
states. -/
structure Leads (server : ApiServer) (cluster : Cluster) (pass : Pass α)
    (next : Cluster) (result : Except PublicationError α) (Along : Cluster → Prop) : Prop where
  outcome : ∀ trace, ∃ more, outcomeOf server cluster trace pass = (next, more, result)
  states : ∀ trace, ∀ state ∈ statesOf server cluster trace pass, Along state

/-- A pass that only reads what is there: it answers so, and leaves everything as it is. -/
abbrev Answers (server : ApiServer) (cluster : Cluster) (pass : Pass α)
    (result : Except PublicationError α) : Prop :=
  Leads server cluster pass cluster result (· = cluster)

theorem Leads.bind {first : Pass α} {rest : α → Pass β} {next last : Cluster} {value : α}
    {result : Except PublicationError β} {Along : Cluster → Prop}
    (h : Leads server cluster first next (.ok value) Along)
    (hrest : Leads server next (rest value) last result Along) :
    Leads server cluster (first >>= rest) last result Along := by
  constructor
  · intro trace
    obtain ⟨more, hfirst⟩ := h.outcome trace
    obtain ⟨later, hlater⟩ := hrest.outcome more
    refine ⟨later, ?_⟩
    rw [outcomeOf_bind, hfirst]
    exact hlater
  · intro trace state hmem
    obtain ⟨more, hfirst⟩ := h.outcome trace
    rw [mem_statesOf_bind, hfirst] at hmem
    rcases hmem with hbefore | hafter
    · exact h.states trace state hbefore
    · exact hrest.states more state hafter

theorem Leads.bind_error {first : Pass α} {rest : α → Pass β} {next : Cluster}
    {error : PublicationError} {Along : Cluster → Prop}
    (h : Leads server cluster first next (.error error) Along) (hnext : Along next) :
    Leads server cluster (first >>= rest) next (.error error) Along := by
  constructor
  · intro trace
    obtain ⟨more, hfirst⟩ := h.outcome trace
    refine ⟨more, ?_⟩
    rw [outcomeOf_bind, hfirst]
  · intro trace state hmem
    obtain ⟨more, hfirst⟩ := h.outcome trace
    rw [mem_statesOf_bind, hfirst] at hmem
    rcases hmem with hbefore | rfl
    · exact h.states trace state hbefore
    · exact hnext

theorem Leads.mono {pass : Pass α} {next : Cluster} {result : Except PublicationError α}
    {Along Among : Cluster → Prop} (h : Leads server cluster pass next result Along)
    (hle : ∀ state, Along state → Among state) : Leads server cluster pass next result Among :=
  ⟨h.outcome, fun trace state hmem => hle state (h.states trace state hmem)⟩

/-- What a pass leaves, and its result. -/
theorem Leads.answer {pass : Pass α} {next : Cluster} {result : Except PublicationError α}
    {Along : Cluster → Prop} (h : Leads server cluster pass next result Along) :
    (outcomeOf server cluster [] pass).1 = next ∧
      (outcomeOf server cluster [] pass).2.2 = result := by
  obtain ⟨more, houtcome⟩ := h.outcome []
  rw [houtcome]
  exact ⟨rfl, rfl⟩

theorem leads_settle {Along : Cluster → Prop} (result : Except PublicationError α)
    (h : Along cluster) : Leads server cluster (settle result) cluster result Along :=
  ⟨fun trace => ⟨trace, rfl⟩, fun _ _ hmem => (List.mem_singleton.mp hmem) ▸ h⟩

theorem answers_settle (result : Except PublicationError α) :
    Answers server cluster (settle result) result := leads_settle result rfl

theorem answers_pure (value : α) :
    Answers server cluster (pure value : Pass α) (.ok value) :=
  answers_settle (.ok value)

/-- What goes on from a result goes on as the result does. -/
theorem Answers.andThen {first : Pass α} {rest : α → Pass β} {value : Except PublicationError α}
    {next : α → Except PublicationError β} (h : Answers server cluster first value)
    (hrest : ∀ found, value = .ok found → Answers server cluster (rest found) (next found)) :
    Answers server cluster (first >>= rest) (value >>= next) := by
  cases value with
  | ok found => exact Leads.bind h (hrest found rfl)
  | error error => exact Leads.bind_error h rfl

theorem answer_eq_ok {found : Option ConfigMap} :
    server.answer cluster document = .ok found ↔ ¬server.Exceeds cluster document ∧
      found = (cluster document).current.map fun stored => stored.configMap document := by
  unfold ApiServer.answer ApiServer.Exceeds
  cases (cluster document).current with
  | none => simp [eq_comm]
  | some stored =>
      dsimp only [Option.isSome_some, Option.map_some]
      by_cases hover : RESPONSE_CAP < server.size cluster document
      · simp [hover]
      · simp [hover, eq_comm]

theorem answer_of_exceeds (h : server.Exceeds cluster document) :
    server.answer cluster document = .error (overResponse document) := by
  obtain ⟨stored, hstored⟩ := Option.isSome_iff_exists.mp h.1
  unfold ApiServer.answer
  rw [hstored]
  exact if_pos h.2

/-- An object that is answered is read as it is stored. -/
theorem readServed_of_within (h : ¬server.Exceeds cluster document) :
    readServed codecs server cluster document =
      readStored codecs document (cluster document).current := by
  unfold readServed readStored
  rw [answer_eq_ok.mpr ⟨h, rfl⟩]
  rfl

theorem readServed_of_exceeds (h : server.Exceeds cluster document) :
    readServed codecs server cluster document = .error (overResponse document) := by
  unfold readServed
  rw [answer_of_exceeds h]
  rfl

theorem readServed_eq_ok {read : Read} : readServed codecs server cluster document = .ok read ↔
    ¬server.Exceeds cluster document ∧
      readStored codecs document (cluster document).current = .ok read := by
  by_cases hover : server.Exceeds cluster document
  · rw [readServed_of_exceeds hover]
    exact ⟨fun h => absurd h nofun, fun h => absurd hover h.1⟩
  · rw [readServed_of_within hover]
    exact ⟨fun h => ⟨hover, h⟩, fun h => h.2⟩

theorem answers_get (document : DocumentKind) :
    Answers server cluster (get document) (server.answer cluster document) := by
  constructor
  · exact fun trace => ⟨_, rfl⟩
  · intro trace state hmem
    change state ∈ [cluster, cluster] at hmem
    simpa using hmem

theorem answers_readOne (document : DocumentKind) :
    Answers server cluster (readOne codecs document) (readServed codecs server cluster document) :=
  (answers_get document).andThen fun found _ => answers_settle (readFound codecs found document)

theorem answers_fetch : Answers server cluster (fetch codecs) (readAll codecs server cluster) := by
  unfold fetch readAll
  apply (answers_readOne .tenants).andThen
  intro tenants _
  apply (answers_readOne .dataSources).andThen
  intro dataSources _
  apply (answers_readOne .catalog).andThen
  intro catalog _
  exact answers_pure _

theorem answers_forM {κ : Type} {body : κ → Pass Unit} {check : κ → Except PublicationError Unit}
    {items : List κ} (h : ∀ item ∈ items, Answers server cluster (body item) (check item)) :
    Answers server cluster (items.forM body) (items.forM check) := by
  induction items with
  | nil => exact answers_pure ()
  | cons item items ih =>
      rw [List.forall_mem_cons] at h
      show Answers server cluster (body item >>= fun _ => items.forM body)
        (check item >>= fun _ => items.forM check)
      exact h.1.andThen fun _ _ => ih h.2

/-! ## Before anything is written -/

section Checked

variable {namespaceName : String} {reads : Reads} {plan : PublicationPlan}

/-- The check that every object is within the size limit. -/
def checkAll (codecs : Codecs) (namespaceName : String) (objects : List Object) :
    Except PublicationError Unit :=
  objects.forM fun object => (object.configMap codecs namespaceName none).map fun _ => ()

theorem answers_check (objects : List Object) :
    Answers server cluster (objects.forM (checkObject codecs namespaceName))
      (checkAll codecs namespaceName objects) := by
  apply answers_forM
  intro object _
  unfold checkObject
  cases hmade : object.configMap codecs namespaceName none with
  | ok made => exact Leads.bind (answers_settle (.ok made)) (answers_pure ())
  | error error => exact Leads.bind_error (answers_settle (.error error)) rfl

theorem readAll_eq_ok : readAll codecs server cluster = .ok reads ↔
    ∀ document, readServed codecs server cluster document = .ok (reads.of document) := by
  unfold readAll
  simp only [bind_eq_ok]
  constructor
  · rintro ⟨tenants, htenants, dataSources, hdataSources, catalog, hcatalog, hreads⟩
    cases hreads
    intro document
    cases document with
    | tenants => exact htenants
    | dataSources => exact hdataSources
    | catalog => exact hcatalog
  · intro h
    exact ⟨reads.tenants, h .tenants, reads.dataSources, h .dataSources, reads.catalog, h .catalog,
      rfl⟩

/-- Nothing has moved. -/
theorem answers_confirm (hreads : readAll codecs server cluster = .ok reads) :
    Answers server cluster (confirmReadOnlyUnmoved codecs plan reads) (.ok ()) := by
  have hunmoved : ∀ document, Answers server cluster
      (confirmUnmoved codecs document (reads.of document)) (.ok ()) := by
    intro document
    have hread : Answers server cluster (readOne codecs document) (.ok (reads.of document)) := by
      rw [← readAll_eq_ok.mp hreads document]
      exact answers_readOne document
    refine Leads.bind hread ?_
    rw [if_pos rfl]
    exact answers_pure ()
  unfold confirmReadOnlyUnmoved
  split
  · exact answers_pure ()
  · have hok : (reliedOn plan reads).forM (fun _ => (.ok () : Except PublicationError Unit)) =
        .ok () := forM_eq_ok.mpr fun _ _ => rfl
    rw [← hok]
    apply answers_forM
    intro entry hentry
    have hread : entry.2.2 = reads.of entry.1 := by
      unfold reliedOn at hentry
      simp only [List.mem_cons, List.not_mem_nil, or_false] at hentry
      rcases hentry with rfl | rfl | rfl <;> rfl
    obtain ⟨document, outcome, read⟩ := entry
    dsimp only at hread ⊢
    subst hread
    split
    · exact hunmoved document
    · exact answers_pure ()

end Checked

/-! ## The writes -/

section Writes

variable (codecs server) (namespaceName : String)

/-- What is there after an object of a plan. -/
def afterWrite (cluster : Cluster) (object : Object) : Cluster :=
  match object.plan.outcome, object.configMap codecs namespaceName object.read.resourceVersion with
  | .written, .ok made =>
      cluster.append object.document ⟨server.version cluster object.document, made.data⟩
  | _, _ => cluster

/-- An object can be written: it is at the version it was read at, and within the size limit. -/
structure Ready (cluster : Cluster) (object : Object) : Prop where
  unmoved : (cluster object.document).current.map Stored.resourceVersion =
    object.read.resourceVersion
  made : ∃ made, object.configMap codecs namespaceName object.read.resourceVersion = .ok made ∧
    made.metadata.resourceVersion = object.read.resourceVersion

variable {codecs server namespaceName}

theorem afterWrite_other {object : Object} {document : DocumentKind}
    (hne : document ≠ object.document) :
    afterWrite codecs server namespaceName cluster object document = cluster document := by
  unfold afterWrite
  cases object.plan.outcome with
  | unchanged => rfl
  | written =>
      cases object.configMap codecs namespaceName object.read.resourceVersion with
      | error error => rfl
      | ok made => exact if_neg hne

/-- A version is written of an object that is to be. -/
theorem length_afterWrite {object : Object} (houtcome : object.plan.outcome = .written)
    (hmade : ∃ made, object.configMap codecs namespaceName object.read.resourceVersion = .ok made) :
    (afterWrite codecs server namespaceName cluster object object.document).written.length =
      (cluster object.document).written.length + 1 := by
  obtain ⟨made, hmade⟩ := hmade
  unfold afterWrite
  rw [houtcome, hmade]
  dsimp only [Cluster.append]
  rw [if_pos rfl]
  exact List.length_append

theorem leads_writeObject (server : ApiServer) {object : Object}
    (h : Ready codecs namespaceName cluster object) :
    Leads server cluster (writeObject codecs namespaceName object)
      (afterWrite codecs server namespaceName cluster object) (.ok ())
      (fun state => state = cluster ∨ state = afterWrite codecs server namespaceName cluster object)
    := by
  obtain ⟨hunmoved, made, hmade, hversion⟩ := h
  unfold writeObject afterWrite
  cases houtcome : object.plan.outcome with
  | unchanged =>
      rw [if_pos rfl]
      exact leads_settle (.ok ()) (Or.inl rfl)
  | written =>
      rw [if_neg nofun, hmade]
      dsimp only
      have hserved : ∀ trace, serve server cluster trace (.write object.document made) =
          (cluster.append object.document ⟨server.version cluster object.document, made.data⟩,
            .ok ()) :=
        fun _ => if_pos (hunmoved.trans hversion.symm)
      refine Leads.bind (leads_settle (.ok made) (Or.inl rfl)) ⟨fun trace => ?_, fun trace => ?_⟩
      · refine ⟨trace ++ [⟨.write object.document made, .ok ()⟩], ?_⟩
        show (_, _, _) = _
        rw [hserved]
      · intro state hmem
        change state ∈ [cluster,
          (serve server cluster trace (.write object.document made)).1] at hmem
        rw [hserved] at hmem
        simpa using hmem

/-- Objects of different documents are written in order. -/
theorem leads_writeAll (server : ApiServer) {objects : List Object}
    (hnodup : (objects.map Object.document).Nodup)
    (hready : ∀ object ∈ objects, Ready codecs namespaceName cluster object) :
    Leads server cluster (objects.forM (writeObject codecs namespaceName))
      (objects.foldl (afterWrite codecs server namespaceName) cluster) (.ok ())
      (fun state => ∃ count, state =
        (objects.take count).foldl (afterWrite codecs server namespaceName) cluster) := by
  induction objects generalizing cluster with
  | nil => exact leads_settle (.ok ()) ⟨0, rfl⟩
  | cons object objects ih =>
      rw [List.map_cons, List.nodup_cons] at hnodup
      rw [List.forall_mem_cons] at hready
      -- The objects that are still to be written are of other documents.
      have hrest : ∀ other ∈ objects, Ready codecs namespaceName
          (afterWrite codecs server namespaceName cluster object) other := by
        intro other hother
        obtain ⟨hunmoved, hmade⟩ := hready.2 other hother
        refine ⟨?_, hmade⟩
        rw [afterWrite_other fun heq => hnodup.1 (heq ▸ List.mem_map_of_mem hother)]
        exact hunmoved
      have hfirst : Leads server cluster (writeObject codecs namespaceName object)
          (afterWrite codecs server namespaceName cluster object) (.ok ()) fun state => ∃ count,
            state = ((object :: objects).take count).foldl
              (afterWrite codecs server namespaceName) cluster := by
        refine (leads_writeObject server hready.1).mono fun state hstate => ?_
        rcases hstate with rfl | rfl
        · exact ⟨0, rfl⟩
        · exact ⟨1, rfl⟩
      refine Leads.bind hfirst ((ih hnodup.2 hrest).mono fun state hstate => ?_)
      obtain ⟨count, hcount⟩ := hstate
      exact ⟨count + 1, hcount⟩

end Writes

/-! ## A publication -/

section Published

variable {namespaceName : String} {reads : Reads} {plan : PublicationPlan}
  {snapshot : RuntimeSnapshot}

/-- What a pass reads and plans, where nothing refuses it. -/
def accepted (codecs : Codecs) (server : ApiServer) (namespaceName : String)
    (snapshot : RuntimeSnapshot) (cluster : Cluster) :
    Except PublicationError (Reads × PublicationPlan) := do
  let reads ← readAll codecs server cluster
  let plan ← planPublication codecs snapshot reads.held
  checkAll codecs namespaceName (objects plan (tenantsObjectPlan plan) reads)
  return (reads, plan)

theorem accepted_eq_ok : accepted codecs server namespaceName snapshot cluster = .ok (reads, plan) ↔
    readAll codecs server cluster = .ok reads ∧
      planPublication codecs snapshot reads.held = .ok plan ∧
      ∀ document, ∃ made,
        (objectOf plan reads document).configMap codecs namespaceName none = .ok made := by
  have hcheck : ∀ reads plan, checkAll codecs namespaceName
      (objects plan (tenantsObjectPlan plan) reads) = .ok () ↔ ∀ document, ∃ made,
        (objectOf plan reads document).configMap codecs namespaceName none = .ok made := by
    intro reads plan
    unfold checkAll
    rw [forM_eq_ok, objects_eq]
    have hmap : ∀ object : Object, (object.configMap codecs namespaceName none).map
        (fun _ => ()) = .ok () ↔ ∃ made, object.configMap codecs namespaceName none = .ok made := by
      intro object
      cases object.configMap codecs namespaceName none <;> simp [Except.map]
    simp only [List.mem_cons, List.not_mem_nil, or_false, forall_eq_or_imp, forall_eq, hmap]
    constructor
    · rintro ⟨hdataSources, hcatalog, htenants⟩ document
      cases document with
      | tenants => exact htenants
      | dataSources => exact hdataSources
      | catalog => exact hcatalog
    · exact fun h => ⟨h .dataSources, h .catalog, h .tenants⟩
  unfold accepted
  simp only [bind_eq_ok, Unique.exists_iff, hcheck]
  constructor
  · rintro ⟨found, hreads, planned, hplan, hmade, heq⟩
    cases heq
    exact ⟨hreads, hplan, hmade⟩
  · rintro ⟨hreads, hplan, hmade⟩
    exact ⟨reads, hreads, plan, hplan, hmade, rfl⟩

/-- The version an object is sent with makes no difference to what is in it. -/
theorem configMap_version {object : Object} {made : ConfigMap}
    (h : object.configMap codecs namespaceName none = .ok made) (version : Option String) :
    ∃ sent, object.configMap codecs namespaceName version = .ok sent ∧
      sent.metadata.resourceVersion = version ∧ sent.data = made.data := by
  unfold Object.configMap objectFor at h ⊢
  simp only [bind_eq_ok] at h ⊢
  obtain ⟨payload, hpayload, line, hline, manifest, hmanifest, carried, hcarried, data, hdata,
    hmade⟩ := h
  cases hmade
  exact ⟨_, ⟨payload, hpayload, line, hline, manifest, hmanifest, carried, hcarried, data, hdata,
    rfl⟩, rfl, rfl⟩

/-- Every object of a pass that is accepted is sent. -/
theorem exists_sent (h : accepted codecs server namespaceName snapshot cluster = .ok (reads, plan))
    (document : DocumentKind) :
    ∃ made, (objectOf plan reads document).configMap codecs namespaceName
      (objectOf plan reads document).read.resourceVersion = .ok made := by
  obtain ⟨made, hmade⟩ := (accepted_eq_ok.mp h).2.2 document
  obtain ⟨sent, hsent, -⟩ := configMap_version hmade _
  exact ⟨sent, hsent⟩

/-- What a pass that is accepted leaves. -/
def published (codecs : Codecs) (server : ApiServer)
    (namespaceName : String) (reads : Reads) (plan : PublicationPlan) (count : Nat)
    (cluster : Cluster) : Cluster :=
  ((objects plan (tenantsObjectPlan plan) reads).take count).foldl
    (afterWrite codecs server namespaceName) cluster

/-- The tenants object is written last. -/
theorem published_tenants : published codecs server namespaceName reads plan 2 cluster .tenants =
    cluster .tenants := by
  show afterWrite codecs server namespaceName (afterWrite codecs server namespaceName cluster
    (objectOf plan reads .dataSources)) (objectOf plan reads .catalog) .tenants = _
  rw [afterWrite_other (by decide : DocumentKind.tenants ≠ .catalog),
    afterWrite_other (by decide : DocumentKind.tenants ≠ .dataSources)]

/-- A version is written of each document whose object is to be. -/
theorem length_published
    (h : accepted codecs server namespaceName snapshot cluster = .ok (reads, plan))
    (document : DocumentKind) (hwritten : (objectOf plan reads document).plan.outcome = .written) :
    (published codecs server namespaceName reads plan 3 cluster document).written.length =
      (cluster document).written.length + 1 := by
  have hlength : ∀ state : Cluster, (afterWrite codecs server namespaceName state
      (objectOf plan reads document) document).written.length =
        (state document).written.length + 1 := by
    intro state
    have hafter := @length_afterWrite codecs server state namespaceName _ hwritten
      (exists_sent h document)
    rwa [document_objectOf] at hafter
  have hother : ∀ (state : Cluster) {other : DocumentKind}, document ≠ other →
      afterWrite codecs server namespaceName state (objectOf plan reads other) document =
        state document := by
    intro state other hne
    refine afterWrite_other ?_
    rwa [document_objectOf]
  show (afterWrite codecs server namespaceName (afterWrite codecs server namespaceName
    (afterWrite codecs server namespaceName cluster (objectOf plan reads .dataSources))
      (objectOf plan reads .catalog)) (objectOf plan reads .tenants) document).written.length = _
  cases document with
  | dataSources => rw [hother _ (by decide), hother _ (by decide), hlength]
  | catalog => rw [hother _ (by decide), hlength, hother _ (by decide)]
  | tenants => rw [hlength, hother _ (by decide), hother _ (by decide)]

/-- A pass that is refused writes nothing. -/
theorem answers_publish {error : PublicationError}
    (h : accepted codecs server namespaceName snapshot cluster = .error error) :
    Answers server cluster (publish codecs namespaceName snapshot) (.error error) := by
  unfold accepted at h
  unfold publish
  cases hreads : readAll codecs server cluster with
  | error refused =>
      rw [hreads] at h
      cases h
      exact Leads.bind_error (hreads ▸ answers_fetch) rfl
  | ok reads =>
      rw [hreads] at h
      refine Leads.bind (hreads ▸ answers_fetch :
        Answers server cluster (fetch codecs) (.ok reads)) ?_
      cases hplan : planPublication codecs snapshot reads.held with
      | error refused =>
          change (planPublication codecs snapshot reads.held >>= _) = _ at h
          rw [hplan] at h
          cases h
          exact Leads.bind_error (answers_settle _) rfl
      | ok plan =>
          change (planPublication codecs snapshot reads.held >>= _) = _ at h
          rw [hplan] at h
          refine Leads.bind (answers_settle (.ok plan)) ?_
          cases hcheck : checkAll codecs namespaceName
              (objects plan (tenantsObjectPlan plan) reads) with
          | error refused =>
              change (checkAll codecs namespaceName _ >>= _) = _ at h
              rw [hcheck] at h
              cases h
              exact Leads.bind_error (hcheck ▸ answers_check _) rfl
          | ok _ =>
              change (checkAll codecs namespaceName _ >>= _) = _ at h
              rw [hcheck] at h
              cases h

/-- The objects of a pass that is accepted are within the size limit. -/
theorem checkAll_of_accepted
    (h : accepted codecs server namespaceName snapshot cluster = .ok (reads, plan)) :
    checkAll codecs namespaceName (objects plan (tenantsObjectPlan plan) reads) = .ok () := by
  obtain ⟨hreads, hplan, -⟩ := accepted_eq_ok.mp h
  unfold accepted at h
  rw [hreads] at h
  change (planPublication codecs snapshot reads.held >>= _) = _ at h
  rw [hplan] at h
  change (checkAll codecs namespaceName _ >>= _) = _ at h
  cases hcheck : checkAll codecs namespaceName (objects plan (tenantsObjectPlan plan) reads) with
  | ok _ => rfl
  | error error =>
      rw [hcheck] at h
      cases h

/-- A pass that is accepted writes its objects in order, and reports its plan. -/
theorem leads_publish (server : ApiServer)
    (h : accepted codecs server namespaceName snapshot cluster = .ok (reads, plan)) :
    Leads server cluster (publish codecs namespaceName snapshot)
      (published codecs server namespaceName reads plan 3 cluster) (.ok plan.report)
      (fun state => ∃ count,
        state = published codecs server namespaceName reads plan count cluster) := by
  obtain ⟨hreads, hplan, hmade⟩ := accepted_eq_ok.mp h
  have hchecked := checkAll_of_accepted h
  have hready : ∀ object ∈ objects plan (tenantsObjectPlan plan) reads,
      Ready codecs namespaceName cluster object := by
    intro object hobject
    rw [objects_eq] at hobject
    obtain ⟨document, rfl⟩ : ∃ document, object = objectOf plan reads document := by
      simp only [List.mem_cons, List.not_mem_nil, or_false] at hobject
      rcases hobject with rfl | rfl | rfl <;> exact ⟨_, rfl⟩
    obtain ⟨made, hmade⟩ := hmade document
    obtain ⟨sent, hsent, hversion, -⟩ := configMap_version hmade
      (objectOf plan reads document).read.resourceVersion
    refine ⟨?_, sent, hsent, hversion⟩
    rw [document_objectOf, read_objectOf]
    exact (version_of_readStored (readServed_eq_ok.mp (readAll_eq_ok.mp hreads document)).2).symm
  have hnodup : ((objects plan (tenantsObjectPlan plan) reads).map Object.document).Nodup := by
    show [DocumentKind.dataSources, .catalog, .tenants].Nodup
    decide
  have hbefore : Answers server cluster (fetch codecs) (.ok reads) := hreads ▸ answers_fetch
  have hsettled : Answers server cluster (settle (planPublication codecs snapshot reads.held))
      (.ok plan) := hplan ▸ answers_settle _
  have hcheck : Answers server cluster ((objects plan (tenantsObjectPlan plan) reads).forM
      (checkObject codecs namespaceName)) (.ok ()) := hchecked ▸ answers_check _
  have hconfirm : Answers server cluster (confirmReadOnlyUnmoved codecs plan reads) (.ok ()) :=
    answers_confirm hreads
  have hstart : ∀ state, state = cluster → ∃ count,
      state = published codecs server namespaceName reads plan count cluster := by
    rintro state rfl
    exact ⟨0, rfl⟩
  unfold publish carryOut
  refine Leads.bind (hbefore.mono hstart) (Leads.bind (hsettled.mono hstart) ?_)
  refine Leads.bind (hcheck.mono hstart) (Leads.bind (hconfirm.mono hstart) ?_)
  exact Leads.bind (leads_writeAll server hnodup hready) (leads_settle (.ok plan.report) ⟨3, rfl⟩)

end Published

end Kubernetes
end SaasFabric
