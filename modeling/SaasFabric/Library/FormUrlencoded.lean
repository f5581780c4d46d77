import Mathlib.Data.List.TakeDrop
import Mathlib.Tactic.Common
import SaasFabric.Library.JsonText

/-!
# Pairs of texts as one query

`application/x-www-form-urlencoded`: names and values byte by byte in their UTF-8, joined by `=`
and `&`.  A query is read leniently: an escape that is none stands for itself, and how bytes are
read as text is the reader's.  Where a reader reads a text from its own bytes, what is written is
read back.
-/

namespace SaasFabric
namespace Library
namespace FormUrlencoded

/-- A text's bytes. -/
def utf8 (text : String) : List UInt8 := text.toList.flatMap String.utf8EncodeChar

/-! ## Writing -/

/-- A byte that stands for itself. -/
def isPlain (byte : UInt8) : Bool :=
  (0x30 ≤ byte && byte ≤ 0x39) || (0x41 ≤ byte && byte ≤ 0x5A) || (0x61 ≤ byte && byte ≤ 0x7A) ||
    byte = 0x2A || byte = 0x2D || byte = 0x2E || byte = 0x5F

def hexDigit (digit : Nat) : Char :=
  if digit < 10 then Char.ofNat (0x30 + digit) else Char.ofNat (0x37 + digit)

def encodeByte (byte : UInt8) : List Char :=
  if isPlain byte then [Char.ofNat byte.toNat]
  else if byte = 0x20 then ['+']
  else ['%', hexDigit (byte.toNat / 16), hexDigit (byte.toNat % 16)]

def encodeText (text : String) : List Char := (utf8 text).flatMap encodeByte

def encodePair (pair : String × String) : List Char :=
  encodeText pair.1 ++ '=' :: encodeText pair.2

/-- The query some pairs are written as. -/
def encode (pairs : List (String × String)) : String :=
  String.ofList (['&'].intercalate (pairs.map encodePair))

/-! ## Reading -/

def decodeBytes : List Char → List UInt8
  | '%' :: high :: low :: rest =>
      match JsonText.hexValue high, JsonText.hexValue low with
      | some high, some low => UInt8.ofNat (16 * high + low) :: decodeBytes rest
      | _, _ => 0x25 :: decodeBytes (high :: low :: rest)
  | '+' :: rest => 0x20 :: decodeBytes rest
  | c :: rest => String.utf8EncodeChar c ++ decodeBytes rest
  | [] => []

section Reading

variable (read : List UInt8 → String)

def decodePair (text : List Char) : String × String :=
  (read (decodeBytes (text.takeWhile (· ≠ '='))),
    read (decodeBytes ((text.dropWhile (· ≠ '=')).drop 1)))

/-- The pairs a query is read as. -/
def decode (query : String) : List (String × String) :=
  ((query.toList.splitOn '&').filter (· ≠ [])).map (decodePair read)

end Reading

/-! ## What is written is read back -/

theorem plain_spec : ∀ code < 256, isPlain (UInt8.ofNat code) = true →
    String.utf8EncodeChar (Char.ofNat code) = [UInt8.ofNat code] ∧
      Char.ofNat code ∉ ['%', '+', '&', '='] := by
  intro code hcode hplain
  have hnat : (UInt8.ofNat code).toNat = code := Nat.mod_eq_of_lt hcode
  have hrange : code = 42 ∨ code = 45 ∨ code = 46 ∨ 48 ≤ code ∧ code ≤ 57 ∨
      65 ≤ code ∧ code ≤ 90 ∨ code = 95 ∨ 97 ≤ code ∧ code ≤ 122 := by
    simp only [isPlain, Bool.or_eq_true, Bool.and_eq_true, decide_eq_true_eq,
      UInt8.le_iff_toNat_le, ← UInt8.toNat_inj, hnat, UInt8.toNat_ofNat] at hplain
    omega
  have hchar : (Char.ofNat code).toNat = code := by
    unfold Char.ofNat
    rw [dif_pos (.inl (by omega))]
    rfl
  constructor
  · have hval : (Char.ofNat code).val.toNat = code := hchar
    unfold String.utf8EncodeChar
    rw [if_pos (by omega), hval]
  · intro hmem
    have hcodes : code ∈ ['%', '+', '&', '='].map Char.toNat :=
      hchar ▸ List.mem_map_of_mem hmem
    have hreserved : code = 37 ∨ code = 43 ∨ code = 38 ∨ code = 61 := by simpa using hcodes
    omega

theorem hexDigit_spec : ∀ digit < 16, JsonText.hexValue (hexDigit digit) = some digit ∧
    hexDigit digit ∉ ['&', '='] := by
  decide

theorem decodeBytes_cons {c : Char} (hpercent : c ≠ '%') (hplus : c ≠ '+') (rest : List Char) :
    decodeBytes (c :: rest) = String.utf8EncodeChar c ++ decodeBytes rest := by
  rw [decodeBytes.eq_def]
  split
  · rename_i heq
    exact absurd (List.cons.inj heq).1 hpercent
  · rename_i heq
    exact absurd (List.cons.inj heq).1 hplus
  · rename_i heq
    cases heq
    rfl
  · rename_i heq
    cases heq

/-- A byte is read back from what it is written as, which separates nothing. -/
theorem encodeByte_spec (byte : UInt8) :
    (∀ rest, decodeBytes (encodeByte byte ++ rest) = byte :: decodeBytes rest) ∧
      ∀ separator ∈ ['&', '='], separator ∉ encodeByte byte := by
  have hlt := byte.toNat_lt
  unfold encodeByte
  by_cases hplain : isPlain byte = true
  · obtain ⟨hutf8, hmem⟩ := plain_spec byte.toNat hlt (by rwa [UInt8.ofNat_toNat])
    rw [UInt8.ofNat_toNat] at hutf8
    rw [if_pos hplain]
    constructor
    · intro rest
      rw [List.singleton_append, decodeBytes_cons, hutf8, List.singleton_append]
      · exact fun h => hmem (by simp [h])
      · exact fun h => hmem (by simp [h])
    · intro separator hseparator hin
      rw [List.mem_singleton.mp hin] at hseparator
      exact hmem (List.mem_cons_of_mem _ (List.mem_cons_of_mem _ hseparator))
  · rw [if_neg hplain]
    by_cases hspace : byte = 0x20
    · rw [if_pos hspace, hspace]
      exact ⟨fun _ => rfl, by decide +kernel⟩
    · have hhigh := hexDigit_spec (byte.toNat / 16) (by omega)
      have hlow := hexDigit_spec (byte.toNat % 16) (by omega)
      have hback : 16 * (byte.toNat / 16) + byte.toNat % 16 = byte.toNat := by omega
      rw [if_neg hspace]
      constructor
      · intro rest
        show decodeBytes ('%' :: hexDigit _ :: hexDigit _ :: rest) = _
        rw [decodeBytes, hhigh.1, hlow.1]
        dsimp only
        rw [hback, UInt8.ofNat_toNat]
      · intro separator hseparator hin
        have hpercent : separator ≠ '%' := by
          rintro rfl
          simp at hseparator
        simp only [List.mem_cons, List.not_mem_nil, or_false, hpercent, false_or] at hin
        rcases hin with rfl | rfl
        · exact hhigh.2 hseparator
        · exact hlow.2 hseparator

theorem decodeBytes_flatMap (bytes : List UInt8) :
    decodeBytes (bytes.flatMap encodeByte) = bytes := by
  induction bytes with
  | nil => rfl
  | cons byte bytes ih => rw [List.flatMap_cons, (encodeByte_spec byte).1, ih]

theorem decodeBytes_encodeText (text : String) : decodeBytes (encodeText text) = utf8 text :=
  decodeBytes_flatMap _

theorem not_mem_encodeText {separator : Char} (h : separator ∈ ['&', '=']) (text : String) :
    separator ∉ encodeText text := by
  intro hmem
  obtain ⟨byte, -, hbyte⟩ := List.mem_flatMap.mp hmem
  exact (encodeByte_spec byte).2 separator h hbyte

variable {read : List UInt8 → String}

/-- The name ends at the first `=`, since it has none itself. -/
theorem decodePair_encodePair (hread : ∀ text, read (utf8 text) = text)
    (pair : String × String) : decodePair read (encodePair pair) = pair := by
  have hname : ∀ c ∈ encodeText pair.1, decide (c ≠ '=') = true := by
    intro c hc
    rw [decide_eq_true_eq]
    rintro rfl
    exact not_mem_encodeText (by simp) _ hc
  rw [decodePair, encodePair, List.takeWhile_append_of_pos hname,
    List.dropWhile_append_of_pos hname]
  simp [decodeBytes_encodeText, hread]

/-- The pairs that are written are read back. -/
theorem decode_encode (hread : ∀ text, read (utf8 text) = text)
    (pairs : List (String × String)) : decode read (encode pairs) = pairs := by
  cases hpairs : pairs with
  | nil => rfl
  | cons first rest =>
      have hseparated : ∀ text ∈ pairs.map encodePair, '&' ∉ text := by
        intro text htext
        obtain ⟨pair, -, rfl⟩ := List.mem_map.mp htext
        simp [encodePair, not_mem_encodeText]
      have hnonempty : ∀ text ∈ pairs.map encodePair, decide (text ≠ []) = true := by
        intro text htext
        obtain ⟨pair, -, rfl⟩ := List.mem_map.mp htext
        simp [encodePair]
      rw [← hpairs, decode, encode, String.toList_ofList,
        List.splitOn_intercalate _ hseparated (by simp [hpairs]),
        List.filter_eq_self.mpr hnonempty, List.map_map]
      exact List.map_id'' (decodePair_encodePair hread) pairs

end FormUrlencoded
end Library
end SaasFabric
