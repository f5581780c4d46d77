import Mathlib.Tactic.Common

/-!
# Codecs

What a value is written as, and what bytes are read as.  A codec that is somebody else's
code comes with the laws that are relied on.
-/

namespace SaasFabric
namespace Library

/-- A writer and a reader of one type.  Either may fail, with a text of its own. -/
structure Codec (T : Type) where
  write : T → Except String ByteArray
  read : ByteArray → Except String T

namespace Codec

variable {T : Type} {codec : Codec T}

/-- Every value is written, and read back. -/
def RoundTrips (codec : Codec T) : Prop :=
  ∀ value, ∃ bytes, codec.write value = .ok bytes ∧ codec.read bytes = .ok value

/-- Whitespace after a value is no part of it. -/
def SkipsNewline (codec : Codec T) : Prop :=
  ∀ bytes value, codec.read bytes = .ok value → codec.read (bytes.push 10) = .ok value

/-- What was written is read back. -/
theorem RoundTrips.read_eq_ok (h : codec.RoundTrips) {value : T} {bytes : ByteArray}
    (hwrite : codec.write value = .ok bytes) : codec.read bytes = .ok value := by
  obtain ⟨written, hwritten, hread⟩ := h value
  rw [hwritten] at hwrite
  cases hwrite
  exact hread

/-- A value on a line of its own. -/
def line (codec : Codec T) (value : T) : Except String ByteArray :=
  (codec.write value).map fun bytes => bytes.push 10

/-- A codec that reads back whatever it wrote, on a line of its own or not. -/
structure Faithful (codec : Codec T) : Prop where
  roundTrips : codec.RoundTrips
  skipsNewline : codec.SkipsNewline

/-- Every value is written on a line, and read back. -/
theorem Faithful.line_spec (h : codec.Faithful) (value : T) :
    ∃ bytes, codec.line value = .ok bytes ∧ codec.read bytes = .ok value := by
  obtain ⟨bytes, hwrite, hread⟩ := h.roundTrips value
  refine ⟨bytes.push 10, ?_, h.skipsNewline bytes value hread⟩
  unfold line
  rw [hwrite]
  rfl

/-- A line is read as the value it was written of. -/
theorem Faithful.read_line (h : codec.Faithful) {value : T} {bytes : ByteArray}
    (hline : codec.line value = .ok bytes) : codec.read bytes = .ok value := by
  obtain ⟨written, hwritten, hread⟩ := h.line_spec value
  rw [hline] at hwritten
  cases hwritten
  exact hread

/-- What is written on a line is UTF-8. -/
def WritesUtf8 (codec : Codec T) : Prop :=
  ∀ value bytes, codec.line value = .ok bytes → bytes.IsValidUTF8

end Codec
end Library
end SaasFabric
