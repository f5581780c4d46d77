import SaasFabric.ControlPlane.AuditRecord
import SaasFabric.Library.Collect
import SaasFabric.Library.Fallible

/-!
# An audit record sealed into its stream's chain

An entry is a record, where it sits, the hash of the entry before it, and a hash over all of
that.  It is stored as one line of JSON, bounded in size, and read back without being trusted.
-/

namespace SaasFabric
namespace ControlPlane

open Library

/-- `ChainBreak`: how a stored chain failed verification. -/
inductive ChainBreak where
  | tampered (sequence : U64)
  | brokenLink (sequence : U64)
  | missing (expected found : U64)
  | outOfOrder (expected found : U64)
  | foreignEntry (sequence : U64)
  | truncated (anchor : ChainHead) (found : U64)
  | anchorMismatch (anchor : ChainHead)
deriving DecidableEq

/-- `AuditError`.  What a decoder reports of a malformed line is the decoder's. -/
inductive AuditError where
  | entryTooLarge (size limit : Nat)
  | broken (stream : AuditStream) (broken : ChainBreak)
  | malformed
  | unavailable (detail : String)
deriving DecidableEq

/-- `MAX_AUDIT_ENTRY_BYTES`. -/
def MAX_AUDIT_ENTRY_BYTES : Nat := 4 * 1024

/-- `AuditEntry`. -/
structure AuditEntry where
  sequence : U64
  at_ : U64
  previous : ChainHash
  record : AuditRecord
  hash : ChainHash
deriving DecidableEq

/-! ## JSON -/

/-- The recursion limit of the decoder. -/
def MAX_DEPTH : Nat := 127

def numeral (value : U64) : Json Numeral := .number (.natural value.val)

def readU64 : Json Numeral → Option U64
  | .number (.natural value) => if h : value < 2 ^ 64 then some ⟨value, h⟩ else none
  | _ => none

/-- What a text form's parser makes of a string. -/
def readText {T : Type} (parse : String → Except String T) (json : Json Numeral) : Option T :=
  json.text.bind fun text => (parse text).toOption

/-- A map of strings, in key order. -/
def writeFields (fields : BTreeMap String String) : Json Numeral :=
  .object (fields.toList.map fun field => (field.1, .string field.2))

def readField (member : String × Json Numeral) : Option (String × String) :=
  member.2.text.map fun value => (member.1, value)

/-- A map of strings: of a key that is repeated, its last value. -/
def readFields : Json Numeral → Option (BTreeMap String String)
  | .object members => (members.mapM readField).map collect
  | _ => none

namespace AuditRecord

def shape : Shape :=
  { fields := ["stream", "event", "operation", "requested_by", "fields"], closed := true }

/-- `Serialize`. -/
def toJson (record : AuditRecord) : Json Numeral :=
  .object [("stream", .string record.stream.text), ("event", .string record.event),
    ("operation", .string record.operation), ("requested_by", .string record.requestedBy),
    ("fields", writeFields record.fields)]

/-- `Deserialize`. -/
def ofJson (json : Json Numeral) : Option AuditRecord := do
  let fields ← json.fields shape
  let stream ← Json.required fields "stream" (readText AuditStream.parse)
  let event ← Json.required fields "event" Json.text
  let operation ← Json.required fields "operation" Json.text
  let requestedBy ← Json.required fields "requested_by" Json.text
  let fields ← Json.required fields "fields" readFields
  some { stream, event, operation, requestedBy, fields }

end AuditRecord

namespace ChainHead

def shape : Shape := { fields := ["sequence", "hash"], closed := true }

/-- `Serialize`. -/
def toJson (head : ChainHead) : Json Numeral :=
  .object [("sequence", numeral head.sequence), ("hash", .string head.hash.text)]

/-- `Deserialize`. -/
def ofJson (json : Json Numeral) : Option ChainHead := do
  let fields ← json.fields shape
  let sequence ← Json.required fields "sequence" readU64
  let hash ← Json.required fields "hash" (readText ChainHash.parse)
  some { sequence, hash }

end ChainHead

namespace AuditEntry

def shape : Shape :=
  { fields := ["sequence", "at", "previous", "record", "hash"], closed := true }

/-- `Sealed`: what an entry's hash is taken over. -/
def sealed (entry : AuditEntry) : Json Numeral :=
  .object [("sequence", numeral entry.sequence), ("at", numeral entry.at_),
    ("previous", .string entry.previous.text), ("record", entry.record.toJson)]

/-- `Serialize`. -/
def toJson (entry : AuditEntry) : Json Numeral :=
  .object [("sequence", numeral entry.sequence), ("at", numeral entry.at_),
    ("previous", .string entry.previous.text), ("record", entry.record.toJson),
    ("hash", .string entry.hash.text)]

/-- `Deserialize`. -/
def ofJson (json : Json Numeral) : Option AuditEntry := do
  let fields ← json.fields shape
  let sequence ← Json.required fields "sequence" readU64
  let at_ ← Json.required fields "at" readU64
  let previous ← Json.required fields "previous" (readText ChainHash.parse)
  let record ← Json.required fields "record" AuditRecord.ofJson
  let hash ← Json.required fields "hash" (readText ChainHash.parse)
  some { sequence, at_, previous, record, hash }

/-- The text an entry's hash is taken over. -/
def sealedText (entry : AuditEntry) : String := String.ofList (JsonText.write entry.sealed)

/-! ## Sealing -/

/-- `AuditEntry::stream`. -/
def stream (entry : AuditEntry) : AuditStream := entry.record.stream

/-- `AuditEntry::head`. -/
def head (entry : AuditEntry) : ChainHead := { sequence := entry.sequence, hash := entry.hash }

/-- The entry as one line of JSON. -/
def line (entry : AuditEntry) : String := String.ofList (JsonText.write entry.toJson)

/-- `AuditEntry::encode`. -/
def encode (entry : AuditEntry) : Except AuditError String :=
  if MAX_AUDIT_ENTRY_BYTES < entry.line.utf8ByteSize then
    .error (.entryTooLarge entry.line.utf8ByteSize MAX_AUDIT_ENTRY_BYTES)
  else .ok entry.line

/-- `AuditEntry::decode`. -/
def decode (line : String) : Except AuditError AuditEntry :=
  match (JsonText.read MAX_DEPTH line.toList).bind ofJson with
  | some entry => .ok entry
  | none => .error .malformed

variable (digest : String → ChainHash)

/-- `AuditEntry::expected_hash`, over what `ChainHash::of` makes of a text's bytes. -/
def expectedHash (entry : AuditEntry) : ChainHash := digest entry.sealedText

/-- What comes after a head. -/
def following : Option ChainHead → Option (U64 × ChainHash)
  | none => some (1, .GENESIS)
  | some head => head.sequence.checkedSucc.map fun sequence => (sequence, head.hash)

/-- The entry that is sealed, before its size is looked at. -/
def sealedAt (sequence : U64) (previous : ChainHash) (at_ : U64) (record : AuditRecord) :
    AuditEntry :=
  let entry : AuditEntry := { sequence, at_, previous, record, hash := .GENESIS }
  { entry with hash := entry.expectedHash digest }

/-- `AuditEntry::seal`. -/
def «seal» (head : Option ChainHead) (at_ : U64) (record : AuditRecord) :
    Except AuditError AuditEntry :=
  match following head with
  | none => .error (.unavailable "the stream's sequence is exhausted")
  | some (sequence, previous) => do
      let entry := sealedAt digest sequence previous at_ record
      let _ ← entry.encode
      .ok entry

end AuditEntry

/-! ## Verification -/

section Verify

variable (digest : String → ChainHash) (stream : AuditStream)

/-- The loop of `verify`: each entry in turn, given the hash and the sequence it has to have. -/
def verifyFrom : ChainHash → U64 → List AuditEntry → Except ChainBreak Unit
  | _, _, [] => .ok ()
  | previous, expected, entry :: later =>
      if entry.stream ≠ stream then
        .error (.foreignEntry entry.sequence)
      else if entry.sequence ≠ expected then
        .error (if later.any fun other => other.sequence = expected
          then .outOfOrder expected entry.sequence else .missing expected entry.sequence)
      else if entry.previous ≠ previous then
        .error (.brokenLink expected)
      else if entry.expectedHash digest ≠ entry.hash then
        .error (.tampered expected)
      else
        verifyFrom entry.hash expected.saturatingSucc later

/-- Whether a stream reaches its recorded head. -/
def checkAnchor (entries : List AuditEntry) (anchor : ChainHead) : Except ChainBreak Unit :=
  match entries.find? fun entry => entry.sequence = anchor.sequence with
  | none => .error (.truncated anchor ((entries.getLast?.map AuditEntry.sequence).getD 0))
  | some entry => if entry.hash ≠ anchor.hash then .error (.anchorMismatch anchor) else .ok ()

/-- `verify`. -/
def verify (entries : List AuditEntry) (anchor : Option ChainHead) :
    Except ChainBreak (Option ChainHead) := do
  verifyFrom digest stream .GENESIS 1 entries
  anchor.elim (.ok ()) (checkAnchor entries)
  .ok (entries.getLast?.map AuditEntry.head)

end Verify

/-! ## A trail -/

/-- `InMemoryAuditTrail`: the entries of each stream. -/
def InMemoryAuditTrail := AuditStream → List AuditEntry

namespace InMemoryAuditTrail

/-- `InMemoryAuditTrail::new`. -/
def new : InMemoryAuditTrail := fun _ => []

/-- `InMemoryAuditTrail::append`: the trail afterwards, and what is answered. -/
def append (digest : String → ChainHash) (trail : InMemoryAuditTrail) (record : AuditRecord)
    (at_ : U64) : InMemoryAuditTrail × Except AuditError AuditEntry :=
  let entries := trail record.stream
  match AuditEntry.seal digest (entries.getLast?.map AuditEntry.head) at_ record with
  | .error error => (trail, .error error)
  | .ok entry =>
      (fun stream => if stream = record.stream then entries ++ [entry] else trail stream,
        .ok entry)

/-- The trail after a sequence of appends, whatever each of them answered. -/
def appendAll (digest : String → ChainHash) (appends : List (AuditRecord × U64)) :
    InMemoryAuditTrail :=
  appends.foldl (fun trail item => (trail.append digest item.1 item.2).1) new

/-- The head a stream's store recorded after its first entries. -/
def anchorAfter (entries : List AuditEntry) (count : Nat) : Option ChainHead :=
  (entries.take count).getLast?.map AuditEntry.head

end InMemoryAuditTrail

end ControlPlane
end SaasFabric
