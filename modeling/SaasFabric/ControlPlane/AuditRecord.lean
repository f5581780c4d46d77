import SaasFabric.ClientModel.Ids
import SaasFabric.Library.JsonText

/-!
# What an audit event says, and the texts its parts are stored as

Streams and hashes have one text form each, which alone is parsed back.  A record's fields are a
sorted map, so a record is written one way.
-/

namespace SaasFabric
namespace ControlPlane

open ClientModel (ClientId)

/-! ## Streams -/

/-- `AuditStream`: one independently verifiable chain of entries. -/
inductive AuditStream where
  | client (id : ClientId)
  | catalogue
  | registries
  | publication
deriving DecidableEq

def CLIENT_PREFIX : String := "client."

namespace AuditStream

/-- `Display`. -/
def text : AuditStream → String
  | .client id => CLIENT_PREFIX ++ id.value
  | .catalogue => "catalogue"
  | .registries => "registries"
  | .publication => "publication"

/-- `str::strip_prefix`. -/
def stripPrefix (start text : String) : Option String :=
  if start.toList.isPrefixOf text.toList then
    some (String.ofList (text.toList.drop start.toList.length))
  else none

/-- `AuditStream::parse`. -/
def parse (text : String) : Except String AuditStream :=
  if text = "catalogue" then .ok .catalogue
  else if text = "registries" then .ok .registries
  else if text = "publication" then .ok .publication
  else match stripPrefix CLIENT_PREFIX text with
    | none => .error ("`" ++ text ++ "` is not an audit stream")
    | some id => ((ClientId.tryNew id).mapError toString).map .client

/-- Every stream is parsed from its text. -/
@[simp] theorem parse_text (stream : AuditStream) : parse stream.text = .ok stream := by
  cases stream with
  | client id =>
      have hstart : CLIENT_PREFIX.toList = ['c', 'l', 'i', 'e', 'n', 't', '.'] := by decide
      have htext : (text (.client id)).toList = CLIENT_PREFIX.toList ++ id.value.toList :=
        String.toList_append
      -- The other three texts start otherwise.
      have hne : ∀ other : String, other.toList.head? ≠ some 'c' ∨ other.toList[1]? ≠ some 'l' →
          text (.client id) ≠ other := by
        rintro other hother rfl
        rw [htext, hstart] at hother
        simp at hother
      have hstrip : stripPrefix CLIENT_PREFIX (text (.client id)) = some id.value := by
        rw [stripPrefix, htext, if_pos (List.isPrefixOf_iff_prefix.mpr (List.prefix_append _ _)),
          List.drop_left, String.ofList_toList]
      rw [parse, if_neg (hne _ (Or.inr (by decide))), if_neg (hne _ (Or.inl (by decide))),
        if_neg (hne _ (Or.inl (by decide))), hstrip]
      dsimp only
      rw [ClientId.tryNew_value]
      rfl
  | catalogue => rfl
  | registries => rfl
  | publication => rfl

theorem text_injective : Function.Injective text := by
  intro first second h
  have hparse := parse_text first
  rw [h, parse_text] at hparse
  cases hparse
  rfl

end AuditStream

/-! ## Hashes -/

/-- `ChainHash`: the SHA-256 of one sealed entry. -/
structure ChainHash where
  bytes : List UInt8
  length : bytes.length = 32
deriving DecidableEq

namespace ChainHash

/-- `ChainHash::GENESIS`. -/
def GENESIS : ChainHash := ⟨List.replicate 32 0, List.length_replicate⟩

/-- `{byte:02x}`. -/
def hexPair (byte : UInt8) : List Char :=
  [Nat.digitChar (byte.toNat / 16), Nat.digitChar (byte.toNat % 16)]

/-- `Display`. -/
def text (hash : ChainHash) : String := String.ofList (hash.bytes.flatMap hexPair)

def isHexDigit (c : Char) : Bool := c.isDigit || ('a' ≤ c && c ≤ 'f')

def hexDigit (c : Char) : Nat := (Library.JsonText.hexValue c).getD 0

/-- The bytes two digits each stand for. -/
def hexBytes : List Char → List UInt8
  | high :: low :: rest => UInt8.ofNat (16 * hexDigit high + hexDigit low) :: hexBytes rest
  | _ => []

theorem length_hexBytes (digits : List Char) : (hexBytes digits).length = digits.length / 2 := by
  induction digits using hexBytes.induct with
  | case1 high low rest ih =>
      rw [hexBytes, List.length_cons, ih, List.length_cons, List.length_cons]
      omega
  | case2 digits hpair =>
      rcases digits with _ | ⟨c, _ | ⟨d, rest⟩⟩
      · rfl
      · simp [hexBytes]
      · exact absurd rfl (hpair c d rest)

/-- `TryFrom<String>`: only the canonical form. -/
def parse (value : String) : Except String ChainHash :=
  if h : value.toList.length = 64 ∧ value.toList.all isHexDigit then
    .ok ⟨hexBytes value.toList, by rw [length_hexBytes, h.1]⟩
  else
    .error ("`" ++ value ++ "` is not a lowercase hex SHA-256")

theorem hexDigit_digitChar : ∀ digit < 16,
    hexDigit (Nat.digitChar digit) = digit ∧ isHexDigit (Nat.digitChar digit) = true := by
  decide

theorem hexBytes_flatMap (bytes : List UInt8) : hexBytes (bytes.flatMap hexPair) = bytes := by
  induction bytes with
  | nil => rfl
  | cons byte bytes ih =>
      have hlt := byte.toNat_lt
      have hhigh := (hexDigit_digitChar (byte.toNat / 16) (by omega)).1
      have hlow := (hexDigit_digitChar (byte.toNat % 16) (by omega)).1
      have hback : 16 * (byte.toNat / 16) + byte.toNat % 16 = byte.toNat := by omega
      rw [List.flatMap_cons, hexPair, List.cons_append, List.cons_append, List.nil_append,
        hexBytes, hhigh, hlow, hback, ih, UInt8.ofNat_toNat]

/-- A hash is parsed from its text. -/
@[simp] theorem parse_text (hash : ChainHash) : parse hash.text = .ok hash := by
  have hlength : ∀ bytes : List UInt8, (bytes.flatMap hexPair).length = 2 * bytes.length := by
    intro bytes
    induction bytes with
    | nil => rfl
    | cons byte bytes ih =>
        rw [List.flatMap_cons, List.length_append, ih, List.length_cons]
        simp [hexPair]
        omega
  have hdigits : (hash.bytes.flatMap hexPair).all isHexDigit = true := by
    rw [List.all_eq_true]
    intro c hc
    obtain ⟨byte, -, hc⟩ := List.mem_flatMap.mp hc
    have hlt := byte.toNat_lt
    simp only [hexPair, List.mem_cons, List.not_mem_nil, or_false] at hc
    rcases hc with rfl | rfl
    · exact (hexDigit_digitChar _ (by omega)).2
    · exact (hexDigit_digitChar _ (by omega)).2
  have htext : hash.text.toList = hash.bytes.flatMap hexPair := String.toList_ofList
  have hvalid : hash.text.toList.length = 64 ∧ hash.text.toList.all isHexDigit = true := by
    rw [htext, hlength, hash.length]
    exact ⟨rfl, hdigits⟩
  rw [parse, dif_pos hvalid]
  cases hash
  simp only [Except.ok.injEq, mk.injEq]
  rw [htext]
  exact hexBytes_flatMap _

theorem text_injective : Function.Injective text := by
  intro first second h
  have hparse := parse_text first
  rw [h, parse_text] at hparse
  cases hparse
  rfl

end ChainHash

/-- `ChainHead`: the last entry of a stream. -/
structure ChainHead where
  sequence : U64
  hash : ChainHash
deriving DecidableEq

/-! ## Records -/

/-- `AuditRecord`: one operator decision. -/
structure AuditRecord where
  stream : AuditStream
  event : String
  operation : String
  requestedBy : String
  fields : BTreeMap String String
deriving DecidableEq

namespace AuditRecord

/-- `AuditRecord::new`. -/
def new (stream : AuditStream) (event operation requestedBy : String) : AuditRecord :=
  { stream, event, operation, requestedBy, fields := ∅ }

/-- `AuditRecord::with`: an empty value is omitted. -/
def «with» (record : AuditRecord) (name value : String) : AuditRecord :=
  if value = "" then record else { record with fields := record.fields.insert name value }

/-- `AuditRecord::field`. -/
def field (record : AuditRecord) (name : String) : Option String := record.fields[name]?

end AuditRecord

end ControlPlane
end SaasFabric
