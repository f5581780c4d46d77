import Mathlib.Data.String.Basic
import Mathlib.Logic.Function.Iterate
import SaasFabric.ControlPlane.AuditEntry

/-!
# The audit chain is complete and tamper evident up to its anchor

A sealed entry's text says everything it seals, so where the digest has no collision an entry's
hash is the entry's own, and, through the hash it names as its predecessor's, that of everything
before it.
-/

namespace SaasFabric
namespace ControlPlane

open Library

/-! ## What is stored is read back -/

theorem mapM_eq_some_of_forall {α β : Type} {write : α → β} {read : β → Option α}
    (h : ∀ item, read (write item) = some item) (items : List α) :
    (items.map write).mapM read = some items := by
  induction items with
  | nil => rfl
  | cons item items ih => simp [h, ih]

theorem readU64_numeral (value : U64) : readU64 (numeral value) = some value := by
  simp [readU64, numeral]

theorem readText_string {T : Type} {parse : String → Except String T} {text : String} {value : T}
    (h : parse text = .ok value) : readText parse (.string text) = some value := by
  simp [readText, Json.text, h, Except.toOption]

theorem readFields_writeFields (fields : BTreeMap String String) :
    readFields (writeFields fields) = some fields := by
  have hread : ∀ field : String × String, readField (field.1, .string field.2) = some field :=
    fun _ => rfl
  rw [writeFields, readFields, mapM_eq_some_of_forall hread, Option.map_some, collect_toList]

namespace AuditRecord

/-- A record is read back. -/
theorem ofJson_toJson (record : AuditRecord) : ofJson record.toJson = some record := by
  have hfields : Json.fields shape record.toJson =
      some [("stream", .string record.stream.text), ("event", .string record.event),
        ("operation", .string record.operation), ("requested_by", .string record.requestedBy),
        ("fields", writeFields record.fields)] := by
    simp [toJson, Json.fields, Json.known, shape]
  rw [ofJson, hfields]
  simp [Json.required, List.lookup_cons, readText_string (AuditStream.parse_text record.stream),
    readFields_writeFields, Json.text]

theorem toJson_injective : Function.Injective toJson := by
  intro first second h
  have hread := ofJson_toJson first
  rw [h, ofJson_toJson] at hread
  exact (Option.some.inj hread).symm

end AuditRecord

theorem depth_writeFields (fields : BTreeMap String String) : (writeFields fields).depth ≤ 1 := by
  have hmembers : ∀ entries : List (String × String),
      Json.depthMembers (entries.map fun field => (field.1, (.string field.2 : Json Numeral))) =
        0 := by
    intro entries
    induction entries with
    | nil => rfl
    | cons entry entries ih =>
        rw [List.map_cons, Json.depthMembers, ih]
        rfl
  rw [writeFields, Json.depth, hmembers]

namespace ChainHead

theorem ofJson_toJson (head : ChainHead) : ofJson head.toJson = some head := by
  have hfields : Json.fields shape head.toJson =
      some [("sequence", numeral head.sequence), ("hash", .string head.hash.text)] := by
    simp [toJson, Json.fields, Json.known, shape]
  rw [ofJson, hfields]
  simp [Json.required, List.lookup_cons, readU64_numeral,
    readText_string (ChainHash.parse_text head.hash)]

end ChainHead

namespace AuditEntry

theorem ofJson_toJson (entry : AuditEntry) : ofJson entry.toJson = some entry := by
  have hfields : Json.fields shape entry.toJson =
      some [("sequence", numeral entry.sequence), ("at", numeral entry.at_),
        ("previous", .string entry.previous.text), ("record", entry.record.toJson),
        ("hash", .string entry.hash.text)] := by
    simp [toJson, Json.fields, Json.known, shape]
  rw [ofJson, hfields]
  simp [Json.required, List.lookup_cons, readU64_numeral, AuditRecord.ofJson_toJson,
    readText_string (ChainHash.parse_text entry.previous),
    readText_string (ChainHash.parse_text entry.hash)]

theorem depth_toJson (entry : AuditEntry) : entry.toJson.depth ≤ MAX_DEPTH := by
  have hfields := depth_writeFields entry.record.fields
  simp only [toJson, AuditRecord.toJson, numeral, Json.depth, Json.depthMembers, MAX_DEPTH]
  omega

/-- An entry's line is decoded as the entry. -/
theorem decode_line (entry : AuditEntry) : decode entry.line = .ok entry := by
  have hread := JsonText.read_write entry.depth_toJson
  rw [decode, line, String.toList_ofList, hread, Option.bind_some, ofJson_toJson]

theorem encode_eq_ok {entry : AuditEntry} {line : String} (h : entry.encode = .ok line) :
    line = entry.line := by
  unfold encode at h
  split at h
  · cases h
  · cases h
    rfl

/-- The text that is sealed says everything it seals. -/
theorem eq_of_sealedText {first second : AuditEntry} (h : first.sealedText = second.sealedText)
    (hhash : first.hash = second.hash) : first = second := by
  have hsealed : first.sealed = second.sealed :=
    JsonText.write_injective (String.ofList_injective h)
  have hmembers := Json.object.inj hsealed
  simp only [List.cons.injEq, Prod.mk.injEq, true_and, and_true, numeral, Json.number.injEq,
    Numeral.natural.injEq, Json.string.injEq] at hmembers
  obtain ⟨hsequence, hat, hprevious, hrecord⟩ := hmembers
  cases first
  cases second
  simp only [mk.injEq]
  exact ⟨Fin.ext hsequence, Fin.ext hat, ChainHash.text_injective hprevious,
    AuditRecord.toJson_injective hrecord, hhash⟩

end AuditEntry

/-! ## Chains -/

section Chains

variable {digest : String → ChainHash} {stream : AuditStream}

/-- The sequence a number of entries after another. -/
def sequenceAfter (expected : U64) (count : Nat) : U64 := U64.saturatingSucc^[count] expected

/-- The hash the next entry has to name. -/
def lastHash (previous : ChainHash) (entries : List AuditEntry) : ChainHash :=
  (entries.getLast?.map AuditEntry.hash).getD previous

/-- Entries of one stream that follow one another. -/
def Chained (digest : String → ChainHash) (stream : AuditStream) :
    ChainHash → U64 → List AuditEntry → Prop
  | _, _, [] => True
  | previous, expected, entry :: later =>
      (entry.stream = stream ∧ entry.sequence = expected ∧ entry.previous = previous ∧
        entry.expectedHash digest = entry.hash) ∧
          Chained digest stream entry.hash expected.saturatingSucc later

/-- The loop of a verification passes exactly the chains. -/
theorem verifyFrom_eq_ok {previous : ChainHash} {expected : U64} {entries : List AuditEntry} :
    verifyFrom digest stream previous expected entries = .ok () ↔
      Chained digest stream previous expected entries := by
  induction entries generalizing previous expected with
  | nil => simp [verifyFrom, Chained]
  | cons entry later ih =>
      rw [verifyFrom, Chained]
      by_cases hstream : entry.stream = stream
      · by_cases hsequence : entry.sequence = expected
        · by_cases hprevious : entry.previous = previous
          · by_cases hhash : entry.expectedHash digest = entry.hash
            · simp [hstream, hsequence, hprevious, hhash, ih]
            · simp [hstream, hsequence, hprevious, hhash]
          · simp [hstream, hsequence, hprevious]
        · simp [hstream, hsequence]
      · simp [hstream]

/-- One more entry at the end of a chain. -/
theorem chained_concat {previous : ChainHash} {expected : U64} {entries : List AuditEntry}
    {entry : AuditEntry} : Chained digest stream previous expected (entries ++ [entry]) ↔
      Chained digest stream previous expected entries ∧ entry.stream = stream ∧
        entry.sequence = sequenceAfter expected entries.length ∧
          entry.previous = lastHash previous entries ∧
            entry.expectedHash digest = entry.hash := by
  induction entries generalizing previous expected with
  | nil => simp [Chained, sequenceAfter, lastHash]
  | cons first entries ih =>
      have hlast : lastHash previous (first :: entries) = lastHash first.hash entries := by
        unfold lastHash
        cases hlast : entries.getLast? with
        | none =>
            rw [List.getLast?_eq_none_iff.mp hlast]
            rfl
        | some last => simp [List.getLast?_cons, hlast]
      rw [List.cons_append, Chained, ih, Chained, hlast, List.length_cons]
      simp only [sequenceAfter, Function.iterate_succ, Function.comp_apply, and_assoc]

theorem Chained.take {previous : ChainHash} {expected : U64} {entries : List AuditEntry}
    (h : Chained digest stream previous expected entries) (count : Nat) :
    Chained digest stream previous expected (entries.take count) := by
  induction entries generalizing previous expected count with
  | nil => simpa using h
  | cons entry entries ih =>
      cases count with
      | zero => trivial
      | succ count =>
          rw [List.take_succ_cons]
          exact ⟨h.1, ih h.2 count⟩

/-- What an entry of a chain names: its stream, its place and its own content. -/
theorem Chained.entry {previous : ChainHash} {expected : U64} {entries : List AuditEntry}
    (h : Chained digest stream previous expected entries) {place : Nat} {entry : AuditEntry}
    (hentry : entries[place]? = some entry) :
    entry.stream = stream ∧ entry.sequence = sequenceAfter expected place ∧
      entry.expectedHash digest = entry.hash ∧
        ∀ next, entries[place + 1]? = some next → next.previous = entry.hash := by
  induction entries generalizing previous expected place with
  | nil => simp at hentry
  | cons first entries ih =>
      cases place with
      | zero =>
          cases hentry
          refine ⟨h.1.1, h.1.2.1, h.1.2.2.2, fun next hnext => ?_⟩
          rw [List.getElem?_cons_succ] at hnext
          cases entries with
          | nil => cases hnext
          | cons second entries =>
              cases hnext
              exact h.2.1.2.2.1
      | succ place =>
          rw [List.getElem?_cons_succ] at hentry
          obtain ⟨hstream, hsequence, hhash, hnext⟩ := ih h.2 hentry
          refine ⟨hstream, ?_, hhash, fun next hfound => ?_⟩
          · rw [hsequence, sequenceAfter, sequenceAfter, Function.iterate_succ,
              Function.comp_apply]
          · rw [List.getElem?_cons_succ] at hfound
            exact hnext next hfound

/-- No two of some entries are sealed differently under one hash. -/
def NoCollision (digest : String → ChainHash) (entries : List AuditEntry) : Prop :=
  ∀ first ∈ entries, ∀ second ∈ entries,
    digest first.sealedText = digest second.sealedText → first.sealedText = second.sealedText

/-- Chains of one length that end in one hash are one chain: by going back from the end, each
entry is the other's, and names the other's predecessor. -/
theorem eq_of_lastHash {previous : ChainHash} {expected : U64} {entries genuine : List AuditEntry}
    (hcollision : NoCollision digest (entries ++ genuine))
    (hentries : Chained digest stream previous expected entries)
    (hgenuine : Chained digest stream previous expected genuine)
    (hlength : entries.length = genuine.length)
    (hlast : lastHash previous entries = lastHash previous genuine) : entries = genuine := by
  induction entries using List.reverseRecOn generalizing genuine with
  | nil => exact (List.length_eq_zero_iff.mp hlength.symm).symm
  | append_singleton entries entry ih =>
      rcases List.eq_nil_or_concat genuine with rfl | ⟨genuine, other, rfl⟩
      · simp at hlength
      · rw [List.concat_eq_append] at hcollision hgenuine hlength hlast ⊢
        obtain ⟨hbefore, -, -, hprevious, hhash⟩ := chained_concat.mp hentries
        obtain ⟨hbefore', -, -, hprevious', hhash'⟩ := chained_concat.mp hgenuine
        have hsame : entry.hash = other.hash := by simpa [lastHash] using hlast
        have htext : entry.sealedText = other.sealedText := by
          apply hcollision entry (by simp) other (by simp)
          show entry.expectedHash digest = other.expectedHash digest
          rw [hhash, hhash', hsame]
        have hentry : entry = other := AuditEntry.eq_of_sealedText htext hsame
        subst hentry
        have hrest : entries = genuine := by
          apply ih _ hbefore hbefore' (by simpa using hlength)
          · rw [← hprevious, ← hprevious']
          · intro first hfirst second hsecond
            apply hcollision first _ second _
            · rcases List.mem_append.mp hfirst with hmem | hmem <;> simp [hmem]
            · rcases List.mem_append.mp hsecond with hmem | hmem <;> simp [hmem]
        rw [hrest]

/-! ## Anchors -/

theorem val_sequenceAfter (count : Nat) :
    (sequenceAfter 1 count).val = min (count + 1) (2 ^ 64 - 1) := by
  induction count with
  | zero => rfl
  | succ count ih =>
      rw [sequenceAfter, Function.iterate_succ_apply', ← sequenceAfter, U64.val_saturatingSucc, ih]
      omega

/-- The entry an anchor names is the one at its place. -/
theorem find?_sequence {entries : List AuditEntry}
    (h : Chained digest stream .GENESIS 1 entries) {sequence : U64} {count : Nat}
    (hsequence : sequence.val = count + 1) :
    entries.find? (fun entry => entry.sequence = sequence) = entries[count]? := by
  have hplace : ∀ (place : Nat) entry, entries[place]? = some entry →
      entry.sequence.val = min (place + 1) (2 ^ 64 - 1) := by
    intro place entry hentry
    rw [(h.entry hentry).2.1, val_sequenceAfter]
  have hlt := sequence.isLt
  cases hcount : entries[count]? with
  | some entry =>
      obtain ⟨hbound, hentry⟩ := List.getElem?_eq_some_iff.mp hcount
      rw [List.find?_eq_some_iff_getElem]
      refine ⟨?_, count, hbound, hentry, fun earlier hearlier => ?_⟩
      · rw [decide_eq_true_eq]
        apply Fin.ext
        rw [hplace count entry hcount]
        omega
      · have hbefore := hplace earlier entries[earlier] (List.getElem?_eq_getElem _)
        simp only [Bool.not_eq_true', decide_eq_false_iff_not]
        intro heq
        rw [heq] at hbefore
        omega
  | none =>
      rw [List.find?_eq_none]
      intro entry hmem
      obtain ⟨place, hbound, hentry⟩ := List.mem_iff_getElem.mp hmem
      have hlength := List.getElem?_eq_none_iff.mp hcount
      have hfound := hplace place entry (by rw [← hentry]; exact List.getElem?_eq_getElem hbound)
      rw [decide_eq_true_eq]
      intro heq
      rw [heq] at hfound
      omega

theorem checkAnchor_eq_ok {entries : List AuditEntry} {anchor : ChainHead} :
    checkAnchor entries anchor = .ok () ↔ ∃ entry,
      entries.find? (fun entry => entry.sequence = anchor.sequence) = some entry ∧
        entry.hash = anchor.hash := by
  unfold checkAnchor
  split
  · rename_i hnone
    simp [hnone]
  · rename_i entry hsome
    simp [hsome]

theorem verify_eq_ok {entries : List AuditEntry} {anchor head : Option ChainHead} :
    verify digest stream entries anchor = .ok head ↔
      Chained digest stream .GENESIS 1 entries ∧
        (∀ named, anchor = some named → checkAnchor entries named = .ok ()) ∧
          head = entries.getLast?.map AuditEntry.head := by
  rw [verify, check_bind_eq_ok, check_bind_eq_ok, verifyFrom_eq_ok]
  cases anchor with
  | none => simp [eq_comm]
  | some named => simp [eq_comm]

end Chains

/-! ## Sealed chains -/

namespace InMemoryAuditTrail

variable {digest : String → ChainHash}

/-- What appends make of a stream: a chain, whose last entry is at its length. -/
structure Genuine (digest : String → ChainHash) (stream : AuditStream)
    (entries : List AuditEntry) : Prop where
  chained : Chained digest stream .GENESIS 1 entries
  last : ∀ entry, entries.getLast? = some entry → entry.sequence.val = entries.length
  encoded : ∀ entry ∈ entries, ∃ line, entry.encode = .ok line

theorem seal_eq_ok {head : Option ChainHead} {at_ : U64} {record : AuditRecord}
    {entry : AuditEntry} (h : AuditEntry.seal digest head at_ record = .ok entry) :
    ∃ sequence previous, AuditEntry.following head = some (sequence, previous) ∧
      entry = AuditEntry.sealedAt digest sequence previous at_ record ∧
        ∃ line, entry.encode = .ok line := by
  unfold AuditEntry.seal at h
  split at h
  · cases h
  · rename_i sequence previous hfollowing
    obtain ⟨line, hline, hentry⟩ := bind_eq_ok.mp h
    cases hentry
    exact ⟨sequence, previous, hfollowing, rfl, line, hline⟩

/-- A sealed entry extends the chain it was sealed after. -/
theorem Genuine.seal {stream : AuditStream} {entries : List AuditEntry} {at_ : U64}
    {record : AuditRecord} {entry : AuditEntry} (h : Genuine digest stream entries)
    (hstream : record.stream = stream)
    (hseal : AuditEntry.seal digest (entries.getLast?.map AuditEntry.head) at_ record =
      .ok entry) : Genuine digest stream (entries ++ [entry]) := by
  obtain ⟨sequence, previous, hfollowing, rfl, hline⟩ := seal_eq_ok hseal
  have hplace : sequence = sequenceAfter 1 entries.length ∧
      previous = lastHash .GENESIS entries ∧ sequence.val = entries.length + 1 := by
    cases hlast : entries.getLast? with
    | none =>
        rw [hlast] at hfollowing
        cases hfollowing
        rw [List.getLast?_eq_none_iff.mp hlast]
        exact ⟨rfl, rfl, rfl⟩
    | some last =>
        rw [hlast, Option.map_some] at hfollowing
        have hlength := h.last last hlast
        obtain ⟨next, hnext, hpair⟩ := Option.map_eq_some_iff.mp hfollowing
        cases hpair
        unfold U64.checkedSucc at hnext
        split at hnext
        · rename_i hbound
          cases hnext
          have hval : last.head.sequence.val = entries.length := hlength
          refine ⟨?_, by rw [lastHash, hlast]; rfl, by simp [hval]⟩
          apply Fin.ext
          rw [val_sequenceAfter]
          simp only [hval] at hbound ⊢
          omega
        · cases hnext
  constructor
  · rw [chained_concat]
    exact ⟨h.chained, hstream, hplace.1, hplace.2.1, rfl⟩
  · intro last hlast
    rw [List.getLast?_concat] at hlast
    cases hlast
    rw [List.length_append]
    exact hplace.2.2
  · intro other hother
    rcases List.mem_append.mp hother with hmem | hmem
    · exact h.encoded other hmem
    · rw [List.mem_singleton.mp hmem]
      exact hline

theorem append_of_seal {trail : InMemoryAuditTrail} {record : AuditRecord} {at_ : U64}
    {entry : AuditEntry} (h : AuditEntry.seal digest
      ((trail record.stream).getLast?.map AuditEntry.head) at_ record = .ok entry) :
    trail.append digest record at_ =
      (fun stream => if stream = record.stream then trail record.stream ++ [entry]
        else trail stream, .ok entry) := by
  unfold append
  dsimp only
  split
  · rename_i error herror
    cases h.symm.trans herror
  · rename_i other hother
    cases h.symm.trans hother
    rfl

theorem appendAll_singleton {record : AuditRecord} {at_ : U64} {entry : AuditEntry}
    (h : AuditEntry.seal digest none at_ record = .ok entry) :
    appendAll digest [(record, at_)] record.stream = [entry] := by
  have hseal : AuditEntry.seal digest ((new record.stream).getLast?.map AuditEntry.head) at_
      record = .ok entry := h
  have hall : appendAll digest [(record, at_)] = (append digest new record at_).1 := rfl
  rw [hall, append_of_seal hseal]
  dsimp only
  rw [if_pos rfl]
  rfl

/-- Every stream of a trail is genuine, whatever was appended to the trail. -/
theorem genuine_appendAll (appends : List (AuditRecord × U64)) (stream : AuditStream) :
    Genuine digest stream (appendAll digest appends stream) := by
  induction appends using List.reverseRecOn generalizing stream with
  | nil => exact ⟨trivial, nofun, nofun⟩
  | append_singleton appends item ih =>
      have hall : appendAll digest (appends ++ [item]) =
          ((appendAll digest appends).append digest item.1 item.2).1 := by
        simp [appendAll]
      rw [hall]
      unfold append
      dsimp only
      split
      · exact ih stream
      · rename_i entry hseal
        dsimp only
        split
        · rename_i hstream
          subst hstream
          exact (ih _).seal rfl hseal
        · exact ih stream

end InMemoryAuditTrail

open InMemoryAuditTrail

/-- The audit chain is complete and tamper evident up to its anchor.  Whatever is appended, in
any order across streams: every stream verifies with the anchor recorded after any number of its
entries, up to its last entry's head.  And where the digest tells the entries involved apart,
entries that verify against an anchor the stream had are, up to the anchor, the entries that were
sealed; every entry is of the stream, is what its own content hashes to, and is named by the
next.  An entry is decoded from what it is encoded as. -/
theorem audit_chain_is_tamper_evident (digest : String → ChainHash)
    (appends : List (AuditRecord × U64)) (stream : AuditStream) :
    (∀ count, verify digest stream (appendAll digest appends stream)
        (anchorAfter (appendAll digest appends stream) count) =
      .ok ((appendAll digest appends stream).getLast?.map AuditEntry.head)) ∧
    (∀ entries count anchor head, count ≤ (appendAll digest appends stream).length →
      anchorAfter (appendAll digest appends stream) count = some anchor →
      NoCollision digest (entries ++ appendAll digest appends stream) →
      verify digest stream entries (some anchor) = .ok head →
      entries.take count = (appendAll digest appends stream).take count ∧
        ∀ place entry, entries[place]? = some entry → entry.stream = stream ∧
          entry.hash = entry.expectedHash digest ∧
            ∀ next, entries[place + 1]? = some next → next.previous = entry.hash) ∧
    (∀ head at_ record entry, AuditEntry.seal digest head at_ record = .ok entry →
      ∃ line, entry.encode = .ok line ∧ AuditEntry.decode line = .ok entry) := by
  have hgenuine : Genuine digest stream (appendAll digest appends stream) :=
    genuine_appendAll appends stream
  generalize appendAll digest appends stream = genuine at *
  -- What an anchor names: the entry at its place.
  have hanchored : ∀ count anchor, count ≤ genuine.length →
      anchorAfter genuine count = some anchor → ∃ place entry, count = place + 1 ∧
        genuine[place]? = some entry ∧ anchor.sequence.val = place + 1 ∧
          anchor.hash = entry.hash ∧ entry.hash = lastHash .GENESIS (genuine.take count) := by
    intro count anchor hcount hanchor
    obtain ⟨entry, hlast, rfl⟩ := Option.map_eq_some_iff.mp hanchor
    cases count with
    | zero => cases hlast
    | succ place =>
        have hentry : genuine[place]? = some entry := by
          rw [List.getLast?_take] at hlast
          have hsome : genuine[place]?.isSome = true := by simp; omega
          obtain ⟨found, hfound⟩ := Option.isSome_iff_exists.mp hsome
          simpa [hfound] using hlast
        refine ⟨place, entry, rfl, hentry, ?_, rfl, ?_⟩
        · show entry.sequence.val = place + 1
          rw [(hgenuine.chained.entry hentry).2.1, val_sequenceAfter]
          -- The last sequence is the number of entries, so no count saturates.
          have hbound : genuine.length < 2 ^ 64 := by
            cases hfinal : genuine.getLast? with
            | none =>
                rw [List.getLast?_eq_none_iff.mp hfinal]
                decide
            | some final =>
                rw [← hgenuine.last final hfinal]
                exact final.sequence.isLt
          omega
        · rw [lastHash, hlast]
          rfl
  refine ⟨fun count => ?_, ?_, ?_⟩
  · rw [verify_eq_ok]
    refine ⟨hgenuine.chained, fun named hnamed => ?_, rfl⟩
    have hmin : anchorAfter genuine (min count genuine.length) = some named := by
      rw [← hnamed, anchorAfter, anchorAfter, ← List.take_eq_take_min]
    obtain ⟨place, entry, -, hentry, hsequence, hhash, -⟩ :=
      hanchored _ named (min_le_right _ _) hmin
    rw [checkAnchor_eq_ok, find?_sequence hgenuine.chained hsequence]
    exact ⟨entry, hentry, hhash.symm⟩
  · intro entries count anchor head hcount hanchor hcollision hverify
    obtain ⟨hchained, hcheck, -⟩ := verify_eq_ok.mp hverify
    refine ⟨?_, fun place entry hentry => ?_⟩
    · obtain ⟨place, sealed, rfl, hsealed, hsequence, hhash, hlast⟩ :=
        hanchored count anchor hcount hanchor
      obtain ⟨entry, hfound, hsame⟩ := checkAnchor_eq_ok.mp (hcheck anchor rfl)
      rw [find?_sequence hchained hsequence] at hfound
      have hlength : place < entries.length := (List.getElem?_eq_some_iff.mp hfound).1
      apply @eq_of_lastHash digest stream .GENESIS 1
      · intro first hfirst second hsecond
        have hmem : ∀ item ∈ entries.take (place + 1) ++ genuine.take (place + 1),
            item ∈ entries ++ genuine := by
          intro item hitem
          rcases List.mem_append.mp hitem with h | h
          · exact List.mem_append_left _ (List.mem_of_mem_take h)
          · exact List.mem_append_right _ (List.mem_of_mem_take h)
        exact hcollision first (hmem first hfirst) second (hmem second hsecond)
      · exact hchained.take _
      · exact hgenuine.chained.take _
      · rw [List.length_take, List.length_take]
        omega
      · rw [← hlast, ← hhash, ← hsame, lastHash, List.getLast?_take]
        simp [hfound]
    · obtain ⟨hstream, -, hhash, hnext⟩ := hchained.entry hentry
      exact ⟨hstream, hhash.symm, hnext⟩
  · intro head at_ record entry hseal
    obtain ⟨-, -, -, -, line, hline⟩ := seal_eq_ok hseal
    refine ⟨line, hline, ?_⟩
    rw [AuditEntry.encode_eq_ok hline, AuditEntry.decode_line]

/-! ## A registry's changes -/

def registryChange (operation : String) : AuditRecord :=
  (AuditRecord.new .registries "control_plane.audit.registry" operation "operator").with
    "outcome" "succeeded"

def registered : AuditEntry :=
  { sequence := 1, at_ := 1700000000, previous := .GENESIS, record := registryChange "register",
    hash := ⟨[0xe6, 0x56, 0x04, 0xc7, 0x04, 0xe0, 0x61, 0x87, 0x88, 0x73, 0x02, 0xf7, 0x19, 0x35,
      0x56, 0x91, 0x22, 0x66, 0x51, 0xbd, 0x9b, 0x27, 0x6a, 0xa1, 0x96, 0x17, 0xab, 0x90, 0x92,
      0xe7, 0x71, 0xd7], rfl⟩ }

/-- A change nobody made, sealed after the one that was. -/
def forged : AuditEntry :=
  { sequence := 2, at_ := 1700000060, previous := registered.hash,
    record := registryChange "set_credential",
    hash := ⟨[0xaa, 0xc8, 0x08, 0xf9, 0xb2, 0x11, 0xc7, 0x22, 0x32, 0x2e, 0x08, 0xc2, 0xd6, 0x9a,
      0x92, 0x31, 0x9c, 0x08, 0xdb, 0xd0, 0x5e, 0x47, 0x2a, 0xcf, 0x79, 0x3c, 0xcc, 0x4c, 0xc8,
      0xc5, 0x04, 0x2d], rfl⟩ }

/-- SHA-256 of the two texts that are sealed. -/
def sealedHash (text : String) : ChainHash :=
  if text = registered.sealedText then registered.hash
  else if text = forged.sealedText then forged.hash
  else .GENESIS

theorem stream_registryChange (operation : String) :
    (registryChange operation).stream = .registries := by
  simp [registryChange, AuditRecord.«with», AuditRecord.new]

theorem expectedHash_registered : registered.expectedHash sealedHash = registered.hash := by
  rw [AuditEntry.expectedHash, sealedHash, if_pos rfl]

/-- The two texts differ, since they say different sequences. -/
theorem expectedHash_forged : forged.expectedHash sealedHash = forged.hash := by
  have hne : forged.sealedText ≠ registered.sealedText := by
    intro htext
    have hentry : forged = { registered with hash := forged.hash } :=
      AuditEntry.eq_of_sealedText htext rfl
    exact absurd (congrArg AuditEntry.sequence hentry) (by decide)
  rw [AuditEntry.expectedHash, sealedHash, if_neg hne, if_pos rfl]

theorem encode_registered : registered.encode = .ok registered.line := by
  rw [AuditEntry.encode, AuditEntry.line, String.utf8ByteSize_ofList, if_neg (by decide +kernel)]

theorem sealedAt_registered : AuditEntry.sealedAt sealedHash 1 .GENESIS 1700000000
    (registryChange "register") = registered := by
  have htext : ({ registered with hash := .GENESIS } : AuditEntry).sealedText =
      registered.sealedText :=
    congrArg (fun json => String.ofList (JsonText.write json)) rfl
  have hhash : ({ registered with hash := .GENESIS } : AuditEntry).expectedHash sealedHash =
      registered.hash := by
    rw [← expectedHash_registered, AuditEntry.expectedHash, AuditEntry.expectedHash, htext]
  rw [AuditEntry.sealedAt]
  show { registered with
    hash := ({ registered with hash := .GENESIS } : AuditEntry).expectedHash sealedHash } =
      registered
  rw [hhash]

theorem seal_registered : AuditEntry.seal sealedHash none 1700000000 (registryChange "register") =
    .ok registered := by
  rw [AuditEntry.seal, AuditEntry.following]
  dsimp only
  rw [sealedAt_registered, encode_registered]
  rfl

theorem appendAll_registered :
    appendAll sealedHash [(registryChange "register", 1700000000)] .registries = [registered] := by
  rw [← stream_registryChange "register"]
  exact appendAll_singleton seal_registered

theorem verify_forged :
    verify sealedHash .registries [registered, forged] (some registered.head) =
      .ok (some forged.head) := by
  rw [verify_eq_ok]
  refine ⟨⟨⟨stream_registryChange _, rfl, rfl, expectedHash_registered⟩,
    ⟨stream_registryChange _, rfl, rfl, expectedHash_forged⟩, trivial⟩, fun named hnamed => ?_,
    rfl⟩
  cases hnamed
  rfl

theorem noCollision_forged :
    NoCollision sealedHash ([registered, forged] ++ [registered]) := by
  have hsealed : ∀ entry ∈ [registered, forged] ++ [registered],
      entry.expectedHash sealedHash = entry.hash := by
    simp [expectedHash_registered, expectedHash_forged]
  have hdistinct : registered.hash ≠ forged.hash := by decide
  intro first hfirst second hsecond hdigest
  have hhash : first.hash = second.hash := by
    rw [← hsealed first hfirst, ← hsealed second hsecond]
    exact hdigest
  simp only [List.cons_append, List.nil_append, List.mem_cons, List.not_mem_nil, or_false]
    at hfirst hsecond
  rcases hfirst with rfl | rfl | rfl <;> rcases hsecond with rfl | rfl | rfl <;>
    first | exact absurd hhash hdistinct | exact absurd hhash.symm hdistinct | rfl

/-- An anchor fixes what is before it: entries with a forged one after the anchor verify, and the
one before it is the one that was recorded. -/
theorem anchored_change_is_kept :
    verify sealedHash .registries [registered, forged] (some registered.head) =
        .ok (some forged.head) ∧
      [registered, forged].take 1 = (appendAll sealedHash
        [(registryChange "register", 1700000000)] .registries).take 1 ∧
      AuditEntry.decode registered.line = .ok registered := by
  have htrail := audit_chain_is_tamper_evident sealedHash
    [(registryChange "register", 1700000000)] .registries
  rw [appendAll_registered] at htrail ⊢
  obtain ⟨-, hanchored, hdecoded⟩ := htrail
  obtain ⟨line, hline, hread⟩ := hdecoded _ _ _ _ seal_registered
  rw [AuditEntry.encode_eq_ok hline] at hread
  have hkept := hanchored _ 1 registered.head _ (Nat.le_of_ble_eq_true rfl) rfl
    noCollision_forged verify_forged
  exact ⟨verify_forged, hkept.1, hread⟩

end ControlPlane
end SaasFabric
