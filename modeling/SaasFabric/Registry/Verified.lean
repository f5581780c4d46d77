import SaasFabric.Library.Fifo
import SaasFabric.Library.Machine
import SaasFabric.Core.Identifier

/-!
# Bytes that were hashed

`fabric-registry`'s `client/verified.rs` and `client/digest.rs`: bytes held by their digest, the
oldest dropped first.  Three fields are kept in step, and they stand for one queue.
-/

namespace SaasFabric
namespace Registry

/-! ## Content -/

/-- `Content`: bytes, and the digest they are known by. -/
structure Content where
  digest : String
  bytes : ByteArray
deriving DecidableEq

/-- `Content::hashed`, from the lower-case hexadecimal of SHA-256. -/
def Content.hashed (sha256 : ByteArray → String) (bytes : ByteArray) : Content :=
  ⟨"sha256:" ++ sha256 bytes, bytes⟩

/-- How many bytes a content is. -/
def Content.length (content : Content) : Nat := content.bytes.size

/-! ## What is held -/

/-- `MOST_ENTRIES`. -/
def MOST_ENTRIES : Nat := 256

/-- `MOST_BYTES`. -/
def MOST_BYTES : Nat := 8 * 1024 * 1024

namespace Verified

/-- `Held`. -/
structure Held where
  byDigest : BTreeMap String ByteArray
  order : List String
  bytes : Nat

/-- `Held::default`. -/
def Held.default : Held := ⟨∅, [], 0⟩

/-- The loop of `insert`: the oldest is dropped until there is room.  Nothing where the sum of
the lengths underflows. -/
def evict (length : Nat) : List String → BTreeMap String ByteArray → Nat → Option Held
  | [], byDigest, bytes => some ⟨byDigest, [], bytes⟩
  | oldest :: order, byDigest, bytes =>
      if MOST_ENTRIES ≤ byDigest.size ∨ MOST_BYTES < bytes + length then
        match byDigest[oldest]? with
        | none => evict length order byDigest bytes
        | some evicted =>
            if evicted.size ≤ bytes then
              evict length order (byDigest.erase oldest) (bytes - evicted.size)
            else
              none
      else
        some ⟨byDigest, oldest :: order, bytes⟩

/-- `insert`, on what is held.  Nothing where it would panic. -/
def Held.insert (held : Held) (content : Content) : Option Held :=
  if MOST_BYTES < content.length ∨ content.digest ∈ held.byDigest then
    some held
  else
    (evict content.length held.order held.byDigest held.bytes).map fun room =>
      { bytes := room.bytes + content.length
        order := room.order ++ [content.digest]
        byDigest := room.byDigest.insert content.digest content.bytes }

/-- `get`, on what is held. -/
def Held.get (held : Held) (digest : String) : Option Content :=
  held.byDigest[digest]?.map fun bytes => ⟨digest, bytes⟩

end Verified

/-- `Verified`: what is held, or a lock that a panic poisoned. -/
abbrev Verified := Option Verified.Held

namespace Verified

/-- `Verified::get`. -/
def get (verified : Verified) (digest : String) : Option Content :=
  verified.bind fun held => held.get digest

/-- `Verified::insert`. -/
def insert (verified : Verified) (content : Content) : Verified :=
  verified.bind fun held => held.insert content

/-- A call; what is inserted was hashed. -/
inductive Call where
  | get (digest : String)
  | insert (bytes : ByteArray)

/-- What a call comes to: an answer, or a content that came to be held. -/
inductive Event where
  | answered (digest : String) (content : Option Content)
  | admitted (content : Content)

/-- A content was not held before a call, and is held after it. -/
def CameToBeHeld (before after : Verified) (content : Content) : Prop :=
  before.get content.digest = none ∧ after.get content.digest = some content

instance (before after : Verified) (content : Content) :
    Decidable (CameToBeHeld before after content) :=
  inferInstanceAs (Decidable (_ ∧ _))

/-- The cache under calls. -/
def cache (sha256 : ByteArray → String) : Library.Machine Verified Call Event where
  step verified
    | .get digest => (verified, [.answered digest (verified.get digest)])
    | .insert bytes =>
        let content := Content.hashed sha256 bytes
        let after := verified.insert content
        (after, if CameToBeHeld verified after content then [.admitted content] else [])

/-- What the calls leave, from an empty cache. -/
def stateAfter (sha256 : ByteArray → String) (calls : List Call) : Verified :=
  (cache sha256).final (some Held.default) calls

/-- What the calls come to, from an empty cache. -/
def eventsOf (sha256 : ByteArray → String) (calls : List Call) : List Event :=
  (cache sha256).emitted (some Held.default) calls

theorem stateAfter_concat {sha256 : ByteArray → String} {calls : List Call} {held : Held}
    (h : stateAfter sha256 calls = some held) (call : Call) :
    stateAfter sha256 (calls ++ [call]) = ((cache sha256).step (some held) call).1 := by
  unfold stateAfter at h ⊢
  rw [Library.Machine.final_append, h]
  rfl

theorem eventsOf_concat {sha256 : ByteArray → String} {calls : List Call} {held : Held}
    (h : stateAfter sha256 calls = some held) (call : Call) :
    eventsOf sha256 (calls ++ [call]) =
      eventsOf sha256 calls ++ ((cache sha256).step (some held) call).2 := by
  unfold stateAfter at h
  unfold eventsOf
  rw [Library.Machine.emitted_append, h, Library.Machine.emitted_cons,
    Library.Machine.emitted_nil, List.append_nil]

/-- The content of an event, where it was admitted. -/
def Event.admitted? : Event → Option Content
  | .answered _ _ => none
  | .admitted content => some content

/-- What was admitted, oldest first. -/
def admitted (events : List Event) : List Content := events.filterMap Event.admitted?

/-! ## The queue it stands for -/

/-- The three fields stand for one queue of contents, oldest first. -/
structure Holds (held : Held) (queue : List Content) : Prop where
  order : held.order = queue.map Content.digest
  nodup : (queue.map Content.digest).Nodup
  bytes : held.bytes = (queue.map Content.length).sum
  size : held.byDigest.size = queue.length
  content : ∀ content, held.byDigest[content.digest]? = some content.bytes ↔ content ∈ queue

variable {held : Held} {queue : List Content} {content : Content}

theorem holds_default : Holds Held.default [] where
  order := rfl
  nodup := List.nodup_nil
  bytes := rfl
  size := Std.ExtTreeMap.size_empty
  content content := by
    show (∅ : BTreeMap String ByteArray)[content.digest]? = _ ↔ _
    rw [Std.ExtTreeMap.getElem?_empty]
    simp

/-- A digest is held where some content of it is. -/
theorem Holds.mem_iff (h : Holds held queue) {digest : String} :
    digest ∈ held.byDigest ↔ digest ∈ queue.map Content.digest := by
  rw [Std.ExtTreeMap.mem_iff_isSome_getElem?, Option.isSome_iff_exists, List.mem_map]
  constructor
  · rintro ⟨bytes, hbytes⟩
    exact ⟨⟨digest, bytes⟩, (h.content ⟨digest, bytes⟩).mp hbytes, rfl⟩
  · rintro ⟨content, hcontent, rfl⟩
    exact ⟨content.bytes, (h.content content).mpr hcontent⟩

/-- Dropping the oldest. -/
theorem Holds.tail {oldest : Content} (h : Holds held (oldest :: queue)) :
    Holds ⟨held.byDigest.erase oldest.digest, queue.map Content.digest,
      held.bytes - oldest.length⟩ queue := by
  have hnodup := List.nodup_cons.mp h.nodup
  have hmem : oldest.digest ∈ held.byDigest := h.mem_iff.mpr List.mem_cons_self
  constructor
  · rfl
  · exact hnodup.2
  · show held.bytes - oldest.length = _
    rw [h.bytes, List.map_cons, List.sum_cons, Nat.add_sub_cancel_left]
  · show (held.byDigest.erase oldest.digest).size = _
    rw [Std.ExtTreeMap.size_erase, if_pos (Std.ExtTreeMap.contains_iff_mem.mpr hmem), h.size, List.length_cons, Nat.add_sub_cancel]
  · intro content
    show (held.byDigest.erase oldest.digest)[content.digest]? = _ ↔ _
    rw [Std.ExtTreeMap.getElem?_erase]
    by_cases hsame : oldest.digest = content.digest
    · rw [if_pos (Std.LawfulEqCmp.compare_eq_iff_eq.mpr hsame)]
      refine ⟨nofun, fun hcontent => absurd ?_ hnodup.1⟩
      rw [hsame]
      exact List.mem_map_of_mem hcontent
    · rw [if_neg fun heq => hsame (Std.LawfulEqCmp.compare_eq_iff_eq.mp heq), h.content,
        List.mem_cons]
      refine ⟨fun hcontent => hcontent.resolve_left fun heq => hsame ?_, Or.inr⟩
      exact congrArg Content.digest heq.symm

/-- A new content at the back. -/
theorem Holds.push (h : Holds held queue) (hnew : content.digest ∉ held.byDigest) :
    Holds ⟨held.byDigest.insert content.digest content.bytes, held.order ++ [content.digest],
      held.bytes + content.length⟩ (queue ++ [content]) := by
  have hfresh : content.digest ∉ queue.map Content.digest := fun hmem => hnew (h.mem_iff.mpr hmem)
  constructor
  · show held.order ++ [content.digest] = _
    rw [h.order, List.map_append, List.map_singleton]
  · rw [List.map_append, List.map_singleton]
    exact List.nodup_append.mpr ⟨h.nodup, List.nodup_singleton _, fun first hfirst second hsecond =>
      fun heq => hfresh (List.mem_singleton.mp hsecond ▸ heq ▸ hfirst)⟩
  · show held.bytes + content.length = _
    rw [h.bytes, List.map_append, List.sum_append, List.map_singleton, List.sum_singleton]
  · show (held.byDigest.insert content.digest content.bytes).size = _
    rw [Std.ExtTreeMap.size_insert, if_neg fun hheld => hnew (Std.ExtTreeMap.contains_iff_mem.mp hheld),
      h.size, List.length_append, List.length_singleton]
  · intro other
    show (held.byDigest.insert content.digest content.bytes)[other.digest]? = _ ↔ _
    rw [Std.ExtTreeMap.getElem?_insert, List.mem_append, List.mem_singleton]
    by_cases hsame : content.digest = other.digest
    · rw [if_pos (Std.LawfulEqCmp.compare_eq_iff_eq.mpr hsame), Option.some.injEq]
      constructor
      · exact fun hbytes => Or.inr (by
          obtain ⟨digest, bytes⟩ := other
          obtain ⟨digest', bytes'⟩ := content
          cases hsame
          cases hbytes
          rfl)
      · rintro (hother | rfl)
        · exact absurd (List.mem_map_of_mem hother) (hsame ▸ hfresh)
        · rfl
    · rw [if_neg fun heq => hsame (Std.LawfulEqCmp.compare_eq_iff_eq.mp heq), h.content]
      refine ⟨Or.inl, fun hother => hother.resolve_right fun heq => hsame ?_⟩
      exact congrArg Content.digest heq.symm

/-- There is room in what is held, for some more bytes, where there is room in the queue. -/
theorem Holds.full_iff (h : Holds held queue) {length : Nat} :
    MOST_ENTRIES ≤ held.byDigest.size ∨ MOST_BYTES < held.bytes + length ↔
      ¬ Library.hasRoom MOST_ENTRIES MOST_BYTES Content.length length queue = true := by
  rw [Library.hasRoom_iff, h.size, h.bytes, not_and_or, not_lt, not_le]

/-- The loop drops the oldest of the queue until there is room, and no sum underflows. -/
theorem Holds.evict (h : Holds held queue) (length : Nat) :
    ∃ room, Verified.evict length held.order held.byDigest held.bytes = some room ∧
      Holds room (Library.dropUntil
        (Library.hasRoom MOST_ENTRIES MOST_BYTES Content.length length) queue) := by
  induction queue generalizing held with
  | nil =>
      refine ⟨held, ?_, h⟩
      have horder : held.order = [] := h.order
      rw [horder]
      unfold Verified.evict
      rw [← horder]
  | cons oldest rest ih =>
      have horder : held.order = oldest.digest :: rest.map Content.digest := h.order
      unfold Library.dropUntil
      rw [horder]
      unfold Verified.evict
      by_cases hroom : Library.hasRoom MOST_ENTRIES MOST_BYTES Content.length length
          (oldest :: rest) = true
      · rw [if_pos hroom, if_neg fun hfull => h.full_iff.mp hfull hroom, ← horder]
        exact ⟨held, rfl, h⟩
      · rw [if_neg hroom, if_pos (h.full_iff.mpr hroom),
          (h.content oldest).mpr List.mem_cons_self]
        -- What is evicted is a term of the sum.
        have hbytes : oldest.bytes.size ≤ held.bytes := by
          rw [h.bytes, List.map_cons, List.sum_cons]
          exact Nat.le_add_right oldest.length _
        dsimp only
        rw [if_pos hbytes]
        exact ih h.tail

/-- A content that is small enough, and whose digest is not held. -/
def Held.Lacks (held : Held) (content : Content) : Prop :=
  content.length ≤ MOST_BYTES ∧ content.digest ∉ held.byDigest

/-- Nothing changes for what is too large or held. -/
theorem insert_of_not_lacks (hskip : ¬ held.Lacks content) : held.insert content = some held :=
  if_pos ((not_and_or.mp hskip).imp not_le.mp not_not.mp)

/-- Anything else is put at the back. -/
theorem Holds.insert (h : Holds held queue) (hlacks : held.Lacks content) :
    ∃ after, held.insert content = some after ∧
      Holds after (Library.enqueue MOST_ENTRIES MOST_BYTES Content.length queue content) := by
  unfold Held.insert
  rw [if_neg fun hskip => hskip.elim (not_lt.mpr hlacks.1) hlacks.2]
  obtain ⟨room, hevict, hroom⟩ := h.evict content.length
  rw [hevict]
  have hfresh : content.digest ∉ room.byDigest := by
    intro hmem
    obtain ⟨other, hother, hdigest⟩ := List.mem_map.mp (hroom.mem_iff.mp hmem)
    refine hlacks.2 (h.mem_iff.mpr (List.mem_map.mpr ⟨other, ?_, hdigest⟩))
    exact (Library.dropUntil_suffix _ queue).subset hother
  exact ⟨_, rfl, hroom.push hfresh⟩

/-! ## Runs -/

/-- How many bytes are held under a digest. -/
def Held.lengthOf (held : Held) (digest : String) : Nat :=
  (held.byDigest[digest]?.map ByteArray.size).getD 0

theorem Holds.lengthOf (h : Holds held queue) (hcontent : content ∈ queue) :
    held.lengthOf content.digest = content.length := by
  unfold Held.lengthOf
  rw [(h.content content).mpr hcontent]
  rfl

/-- The lengths under some digests of the queue are the lengths of their contents. -/
theorem Holds.map_lengthOf (h : Holds held queue) {part : List Content}
    (hsome : ∀ content ∈ part, content ∈ queue) :
    (part.map Content.digest).map held.lengthOf = part.map Content.length := by
  rw [List.map_map]
  exact List.map_congr_left fun content hcontent => h.lengthOf (hsome content hcontent)

/-- A content that was new is held, at the expense of the shortest prefix of the oldest that
makes room. -/
structure Admitted (held after : Held) (content : Content) : Prop where
  new : after.get content.digest = some content
  evicts : ∃ evicted kept, held.order = evicted ++ kept ∧ after.order = kept ++ [content.digest] ∧
    (∀ digest ∈ evicted, after.get digest = none) ∧
    (∀ digest ∈ kept, after.get digest = held.get digest) ∧
    Library.hasRoom MOST_ENTRIES MOST_BYTES held.lengthOf content.length kept = true ∧
    ∀ fewer more, evicted = fewer ++ more → more ≠ [] →
      Library.hasRoom MOST_ENTRIES MOST_BYTES held.lengthOf content.length (more ++ kept) = false

theorem Holds.get_eq_some (h : Holds held queue) (hcontent : content ∈ queue) :
    held.get content.digest = some content := by
  unfold Held.get
  rw [(h.content content).mpr hcontent]
  rfl

theorem Holds.get_eq_none (h : Holds held queue) {digest : String}
    (hdigest : digest ∉ queue.map Content.digest) : held.get digest = none := by
  unfold Held.get
  cases hbytes : held.byDigest[digest]? with
  | none => rfl
  | some bytes =>
      refine absurd (List.mem_map_of_mem ((h.content ⟨digest, bytes⟩).mp hbytes)) hdigest

/-- What makes room in the queue makes room in what is held. -/
theorem Holds.hasRoom (h : Holds held queue) {part : List Content}
    (hsome : ∀ content ∈ part, content ∈ queue) {length : Nat} :
    Library.hasRoom MOST_ENTRIES MOST_BYTES held.lengthOf length (part.map Content.digest) =
      Library.hasRoom MOST_ENTRIES MOST_BYTES Content.length length part := by
  unfold Library.hasRoom
  rw [h.map_lengthOf hsome, List.length_map]

/-- A new content is admitted. -/
theorem Holds.admitted (h : Holds held queue) (hlacks : held.Lacks content) :
    ∃ after, held.insert content = some after ∧ Admitted held after content := by
  obtain ⟨after, hinsert, hafter⟩ := h.insert hlacks
  have hroom := @Library.hasRoom_dropUntil Content MOST_ENTRIES MOST_BYTES Content.length queue
    (by decide) _ hlacks.1
  obtain ⟨dropped, hqueue, -, hleast⟩ := Library.dropUntil_spec
    (Library.hasRoom MOST_ENTRIES MOST_BYTES Content.length content.length) queue
  unfold Library.enqueue at hafter
  generalize Library.dropUntil
    (Library.hasRoom MOST_ENTRIES MOST_BYTES Content.length content.length) queue = kept
    at hafter hroom hqueue hleast
  have hkept : ∀ other ∈ kept, other ∈ queue := fun other hother =>
    hqueue ▸ List.mem_append_right _ hother
  refine ⟨after, hinsert, hafter.get_eq_some (List.mem_append_right _ (List.mem_singleton.mpr rfl)),
    dropped.map Content.digest, kept.map Content.digest, ?_, ?_, ?_, ?_, ?_, ?_⟩
  · rw [h.order, hqueue, List.map_append]
  · rw [hafter.order, List.map_append, List.map_singleton]
  · -- What was dropped is neither kept nor new.
    intro digest hdigest
    refine hafter.get_eq_none fun hmem => ?_
    rw [List.map_append, List.map_singleton] at hmem
    have hnodup := h.nodup
    rw [hqueue, List.map_append] at hnodup
    rcases List.mem_append.mp hmem with hmem | hmem
    · exact (List.nodup_append.mp hnodup).2.2 digest hdigest digest hmem rfl
    · refine hlacks.2 (h.mem_iff.mpr ?_)
      rw [← List.mem_singleton.mp hmem, hqueue, List.map_append]
      exact List.mem_append_left _ hdigest
  · intro digest hdigest
    obtain ⟨other, hother, rfl⟩ := List.mem_map.mp hdigest
    rw [hafter.get_eq_some (List.mem_append_left _ hother), h.get_eq_some (hkept other hother)]
  · rw [h.hasRoom hkept, hroom]
  · intro fewer more hdropped hmore
    obtain ⟨first, second, hsplit, -, rfl⟩ := List.map_eq_append_iff.mp hdropped
    have hrest : ∀ other ∈ second ++ kept, other ∈ queue := by
      intro other hother
      rw [hqueue, hsplit, List.append_assoc]
      exact List.mem_append_right _ hother
    rw [← List.map_append, h.hasRoom hrest]
    exact hleast first second hsplit fun hnil => hmore (by rw [hnil]; rfl)

/-- After some calls: the fields stand for one queue, the last of what was admitted, within
both bounds, and whatever is held or was answered was hashed to its digest. -/
structure Keeps (sha256 : ByteArray → String) (held : Held) (queue : List Content)
    (events : List Event) : Prop where
  holds : Holds held queue
  newest : queue <:+ admitted events
  entries : queue.length ≤ MOST_ENTRIES
  budget : (queue.map Content.length).sum ≤ MOST_BYTES
  hashed : ∀ content ∈ admitted events, content = .hashed sha256 content.bytes

variable {sha256 : ByteArray → String} {events : List Event}

theorem keeps_default : Keeps sha256 Held.default [] [] where
  holds := holds_default
  newest := List.suffix_refl []
  entries := Nat.zero_le _
  budget := Nat.zero_le _
  hashed := fun _ hcontent => absurd hcontent List.not_mem_nil

/-- What is held was hashed to its digest. -/
theorem Keeps.get (h : Keeps sha256 held queue events) {digest : String}
    (hget : held.get digest = some content) :
    content.digest = digest ∧ content = .hashed sha256 content.bytes := by
  unfold Held.get at hget
  obtain ⟨bytes, hbytes, rfl⟩ := Option.map_eq_some_iff.mp hget
  have hmem : ⟨digest, bytes⟩ ∈ queue := (h.holds.content ⟨digest, bytes⟩).mp hbytes
  exact ⟨rfl, h.hashed _ (h.newest.subset hmem)⟩

/-- A content that is lacking comes to be held with its insert, and no other does. -/
theorem Holds.cameToBeHeld_iff (h : Holds held queue) :
    CameToBeHeld (some held) (Verified.insert (some held) content) content ↔
      held.Lacks content := by
  by_cases hlacks : held.Lacks content
  · refine iff_of_true ⟨?_, ?_⟩ hlacks
    · exact h.get_eq_none fun hmem => hlacks.2 (h.mem_iff.mpr hmem)
    · obtain ⟨after, hinsert, hadmitted⟩ := h.admitted hlacks
      show (held.insert content).bind (·.get content.digest) = _
      rw [hinsert]
      exact hadmitted.new
  · refine iff_of_false (fun ⟨hnone, hsome⟩ => ?_) hlacks
    have hsame : Verified.insert (some held) content = some held := insert_of_not_lacks hlacks
    rw [hsame, hnone] at hsome
    cases hsome

/-- Every call keeps it, and none poisons the lock. -/
theorem Keeps.step (h : Keeps sha256 held queue events) (call : Call) :
    ∃ after rest, ((cache sha256).step (some held) call).1 = some after ∧
      Keeps sha256 after rest (events ++ ((cache sha256).step (some held) call).2) := by
  cases call with
  | get digest =>
      have hadmitted : admitted (events ++ [.answered digest (held.get digest)]) =
          admitted events := by
        unfold admitted
        rw [List.filterMap_append]
        exact List.append_nil _
      exact ⟨held, queue, rfl, h.holds, hadmitted ▸ h.newest, h.entries, h.budget,
        hadmitted ▸ h.hashed⟩
  | insert bytes =>
      by_cases hlacks : held.Lacks (Content.hashed sha256 bytes)
      · obtain ⟨after, hinsert, hafter⟩ := h.holds.insert hlacks
        have hstep : (cache sha256).step (some held) (.insert bytes) =
            (some after, [.admitted (.hashed sha256 bytes)]) :=
          Prod.ext hinsert (if_pos (h.holds.cameToBeHeld_iff.mpr hlacks))
        have hadmitted : admitted (events ++ [.admitted (.hashed sha256 bytes)]) =
            admitted events ++ [.hashed sha256 bytes] := by
          unfold admitted
          rw [List.filterMap_append]
          rfl
        obtain ⟨hentries, hbudget⟩ := @Library.bounded_enqueue Content MOST_ENTRIES MOST_BYTES
          Content.length queue (.hashed sha256 bytes) (by decide) hlacks.1
        rw [hstep]
        refine ⟨after, _, rfl, hafter, ?_, hentries, hbudget, ?_⟩
        · rw [hadmitted]
          obtain ⟨earlier, hearlier⟩ := (Library.dropUntil_suffix _ queue).trans h.newest
          exact ⟨earlier, by rw [Library.enqueue, ← List.append_assoc, hearlier]⟩
        · rw [hadmitted]
          intro content hcontent
          rcases List.mem_append.mp hcontent with hcontent | hcontent
          · exact h.hashed content hcontent
          · rw [List.mem_singleton.mp hcontent]
            rfl
      · have hstep : (cache sha256).step (some held) (.insert bytes) = (some held, []) :=
          Prod.ext (insert_of_not_lacks hlacks)
            (if_neg fun hcame => hlacks (h.holds.cameToBeHeld_iff.mp hcame))
        rw [hstep, List.append_nil]
        exact ⟨held, queue, rfl, h⟩

/-- Every run keeps it. -/
theorem keeps_run (sha256 : ByteArray → String) (calls : List Call) :
    ∃ held queue, stateAfter sha256 calls = some held ∧
      Keeps sha256 held queue (eventsOf sha256 calls) := by
  have hrun := (cache sha256).trace_invariant
    (fun verified events => ∃ held queue, verified = some held ∧ Keeps sha256 held queue events)
    ?_ ⟨_, _, rfl, keeps_default⟩ calls
  · exact hrun
  · rintro verified events call ⟨held, queue, rfl, h⟩
    exact h.step call

/-- What is held after some calls, as its fields and the next call show it. -/
structure Consistent (sha256 : ByteArray → String) (calls : List Call) (held : Held) : Prop where
  oldest : ∃ queue, queue <:+ admitted (eventsOf sha256 calls) ∧
    held.order = queue.map Content.digest
  exact : ∀ digest, digest ∈ held.order ↔ digest ∈ held.byDigest
  nodup : held.order.Nodup
  bytes : held.bytes = (held.order.map held.lengthOf).sum
  entries : held.byDigest.size ≤ MOST_ENTRIES
  budget : held.bytes ≤ MOST_BYTES
  admits : ∀ bytes, held.Lacks (.hashed sha256 bytes) →
    ∃ next, stateAfter sha256 (calls ++ [.insert bytes]) = some next ∧
      Admitted held next (.hashed sha256 bytes)
  skips : ∀ bytes, ¬ held.Lacks (.hashed sha256 bytes) →
    stateAfter sha256 (calls ++ [.insert bytes]) = some held
  gets : ∀ digest, stateAfter sha256 (calls ++ [.get digest]) = some held ∧
    eventsOf sha256 (calls ++ [.get digest]) =
      eventsOf sha256 calls ++ [.answered digest (held.get digest)]
  hashed : ∀ digest content, held.get digest = some content →
    content.digest = digest ∧ content = .hashed sha256 content.bytes

/-- After any calls the cache is consistent: no call panics, the order lists what is held, oldest
first, as the calls came to be held, the count of bytes is their sum, both bounds hold, the next
insert of a new content leaves it held at the expense of the fewest of the oldest, any other
changes nothing, and what is answered was hashed to the digest it is asked by. -/
theorem verified_is_consistent (sha256 : ByteArray → String) (calls : List Call) :
    ∃ held, stateAfter sha256 calls = some held ∧ Consistent sha256 calls held := by
  obtain ⟨held, queue, hafter, h⟩ := keeps_run sha256 calls
  have hmem : ∀ content ∈ queue, content ∈ queue := fun _ hcontent => hcontent
  refine ⟨held, hafter, ⟨queue, h.newest, h.holds.order⟩, fun digest => ?_, ?_, ?_, ?_, ?_, ?_, ?_,
    ?_, fun digest content => h.get⟩
  · rw [h.holds.order, h.holds.mem_iff]
  · rw [h.holds.order]
    exact h.holds.nodup
  · rw [h.holds.order, h.holds.map_lengthOf hmem, h.holds.bytes]
  · rw [h.holds.size]
    exact h.entries
  · rw [h.holds.bytes]
    exact h.budget
  · intro bytes hlacks
    rw [stateAfter_concat hafter]
    exact h.holds.admitted hlacks
  · intro bytes hskip
    rw [stateAfter_concat hafter]
    exact insert_of_not_lacks hskip
  · intro digest
    rw [stateAfter_concat hafter, eventsOf_concat hafter]
    exact ⟨rfl, rfl⟩

end Verified
end Registry
end SaasFabric
