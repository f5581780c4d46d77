import Mathlib.Data.List.Nodup
import Mathlib.Tactic.Common

/-!
# Text codecs

What a value is written as, and what a text is read as, of a writer and a reader that are
somebody else's code.
-/

namespace SaasFabric
namespace Library

/-- A writer and a reader of one type.  Either may fail, with a text of its own. -/
structure TextCodec (T : Type) where
  write : T → Except String String
  read : String → Except String T

namespace TextCodec

variable {T : Type}

/-- What was written is read as nothing else. -/
def ReadsBack (codec : TextCodec T) : Prop :=
  ∀ value text reread, codec.write value = .ok text → codec.read text = .ok reread →
    reread = value

/-- Every value is written, and read back. -/
def RoundTrips (codec : TextCodec T) : Prop :=
  ∀ value, ∃ text, codec.write value = .ok text ∧ codec.read text = .ok value

/-- The codec of the values in a table, which refuses everything else. -/
def table [DecidableEq T] (samples : List (T × String)) : TextCodec T where
  write value :=
    match samples.find? fun sample => sample.1 == value with
    | some sample => .ok sample.2
    | none => .error "not in the table"
  read text :=
    match samples.find? fun sample => sample.2 == text with
    | some sample => .ok sample.1
    | none => .error "not in the table"

/-- Values that are written differently are read back. -/
theorem readsBack_table [DecidableEq T] {samples : List (T × String)}
    (h : (samples.map Prod.snd).Nodup) : (table samples).ReadsBack := by
  intro value text reread hwrite hread
  unfold table at hwrite hread
  dsimp only at hwrite hread
  split at hwrite
  · next written hwritten =>
    split at hread
    · next found hfound =>
      cases hwrite
      cases hread
      have hvalue : written.1 = value := beq_iff_eq.mp (List.find?_some hwritten :)
      have htext : found.2 = written.2 := beq_iff_eq.mp (List.find?_some hfound :)
      -- One text stands for one value.
      have hsame : found = written := List.inj_on_of_nodup_map h
        (List.mem_of_find?_eq_some hfound) (List.mem_of_find?_eq_some hwritten) htext
      rw [hsame, hvalue]
    · cases hread
  · cases hwrite

end TextCodec
end Library
end SaasFabric
