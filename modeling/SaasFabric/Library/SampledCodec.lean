import Mathlib.Data.Countable.Basic
import Mathlib.Logic.Equiv.List
import SaasFabric.Library.Codec

/-!
# Sampled codecs

A codec that is known on a few samples: they are written as given, and every other value
of a countable type as some bytes that no sample has.  It shows that the laws asked of a
codec can be met together with the bytes a run is about.
-/

namespace SaasFabric
namespace Library

theorem countable_char : Countable Char :=
  Function.Injective.countable (f := Char.toNat) fun first second h => by
    rcases first with ⟨first, hfirst⟩
    rcases second with ⟨second, hsecond⟩
    have heq : first = second := UInt32.toNat_inj.mp h
    subst heq
    rfl

instance countableString : Countable String :=
  have := countable_char
  Function.Injective.countable (f := String.toList) fun _ _ => String.toList_injective

/-- Bytes without the newlines they end in, as a list. -/
def trimNewlines (bytes : ByteArray) : List UInt8 :=
  (bytes.data.toList.reverse.dropWhile (· == 10)).reverse

theorem trimNewlines_push (bytes : ByteArray) :
    trimNewlines (bytes.push 10) = trimNewlines bytes := by
  unfold trimNewlines
  show ((bytes.data.push 10).toList.reverse.dropWhile (· == 10)).reverse = _
  simp

/-- A sample is not taken for another value: it ends in no newline and does not start as
the other values do. -/
def IsSample (bytes : ByteArray) : Prop :=
  trimNewlines bytes = bytes.data.toList ∧ bytes.data.toList.head? ≠ some 0

instance (bytes : ByteArray) : Decidable (IsSample bytes) :=
  inferInstanceAs (Decidable (_ ∧ _))

/-- A text is a sample where it starts with no zero and ends in no newline, whatever is
in between. -/
theorem isSample_enclosed {opening inner closing : String} {first last : UInt8}
    {start finish : List UInt8} (hopening : opening.toUTF8.data.toList = first :: start)
    (hfirst : first ≠ 0) (hclosing : closing.toUTF8.data.toList = finish ++ [last])
    (hlast : last ≠ 10) : IsSample (opening ++ inner ++ closing).toUTF8 := by
  have hbytes : (opening ++ inner ++ closing).toUTF8.data.toList =
      first :: start ++ (inner.toUTF8.data.toList ++ (finish ++ [last])) := by
    show (opening ++ inner ++ closing).toByteArray.data.toList = _
    rw [String.toByteArray_append, String.toByteArray_append, ByteArray.data_append,
      ByteArray.data_append, Array.toList_append, Array.toList_append, ← hopening, ← hclosing,
      List.append_assoc]
    rfl
  constructor
  · unfold trimNewlines
    rw [hbytes]
    simp [hlast]
  · rw [hbytes]
    simpa using hfirst

/-- A text in brackets is a sample. -/
theorem isSample_brackets (inner : String) : IsSample ("[" ++ inner ++ "]").toUTF8 :=
  @isSample_enclosed "[" inner "]" 91 93 [] [] rfl (by decide) rfl (by decide)

/-- A text in braces is a sample. -/
theorem isSample_braces (inner : String) : IsSample ("\x7b" ++ inner ++ "\x7d").toUTF8 :=
  @isSample_enclosed "\x7b" inner "\x7d" 123 125 [] [] rfl (by decide) rfl (by decide)

/-- What a table holds for some bytes, or else. -/
def tabled {T : Type} (table : List (String × T)) (otherwise : T) (bytes : ByteArray) : T :=
  match table.find? fun entry => entry.1.toUTF8.data.toList == bytes.data.toList with
  | some entry => entry.2
  | none => otherwise

/-- For each of some texts that are apart, a table holds what is beside it. -/
theorem tabled_of_mem {T : Type} {table : List (String × T)} {text : String}
    {value otherwise : T} (hapart : (table.map Prod.fst).Nodup) (h : (text, value) ∈ table) :
    tabled table otherwise text.toUTF8 = value := by
  unfold tabled
  split
  · next found hfound =>
      have hbytes : found.1.toUTF8.data.toList = text.toUTF8.data.toList :=
        beq_iff_eq.mp (List.find?_some hfound :)
      have htext : found.1 = text :=
        String.toByteArray_inj.mp (ByteArray.ext (Array.toList_inj.mp hbytes))
      have hsame := List.inj_on_of_nodup_map hapart (List.mem_of_find?_eq_some hfound) h htext
      rw [hsame]
  · next hnone =>
      have hother := List.find?_eq_none.mp hnone (text, value) h
      exact absurd (beq_self_eq_true _) hother

section Sampled

variable {T : Type} [Countable T]

/-- What a value that is no sample is written as. -/
noncomputable def unary (value : T) : ByteArray :=
  ⟨(0 :: List.replicate ((exists_injective_nat T).choose value) 1).toArray⟩

theorem unary_injective {first second : T}
    (h : (unary first).data.toList = (unary second).data.toList) : first = second := by
  have hlength := congrArg List.length h
  unfold unary at hlength
  simp only [List.length_cons, List.length_replicate, Nat.add_right_cancel_iff] at hlength
  exact (exists_injective_nat T).choose_spec hlength

theorem trimNewlines_unary (value : T) :
    trimNewlines (unary value) = (unary value).data.toList := by
  unfold trimNewlines unary
  generalize (exists_injective_nat T).choose value = count
  cases count with
  | zero => rfl
  | succ count => simp [List.replicate_succ, ← List.replicate_succ']

theorem isValidUTF8_push {bytes : ByteArray} (h : bytes.IsValidUTF8) :
    (bytes.push 10).IsValidUTF8 :=
  h.push (by decide : ('\n' : Char).utf8Size = 1)

theorem isValidUTF8_unary (value : T) : (unary value).IsValidUTF8 := by
  unfold unary
  generalize (exists_injective_nat T).choose value = count
  induction count with
  | zero => decide
  | succ count ih =>
      have hpush : (⟨(0 :: List.replicate (count + 1) 1).toArray⟩ : ByteArray) =
          (⟨(0 :: List.replicate count 1).toArray⟩ : ByteArray).push 1 := by
        show _ = (⟨(0 :: List.replicate count 1).toArray.push 1⟩ : ByteArray)
        simp [List.replicate_succ']
      rw [hpush]
      exact ih.push (by decide : (Char.ofNat 1).utf8Size = 1)

variable [DecidableEq T]

/-- The codec of some samples. -/
noncomputable def Codec.sampled (samples : List (T × ByteArray)) : Codec T where
  write value :=
    match samples.find? fun sample => sample.1 == value with
    | some sample => .ok sample.2
    | none => .ok (unary value)
  read bytes :=
    match samples.find? fun sample => sample.2.data.toList == trimNewlines bytes with
    | some sample => .ok sample.1
    | none =>
        open Classical in
        if h : ∃ value, (unary value).data.toList = trimNewlines bytes then .ok h.choose
        else .error "no value is written so"

theorem Codec.skipsNewline_sampled (samples : List (T × ByteArray)) :
    (Codec.sampled samples).SkipsNewline := by
  intro bytes value h
  unfold Codec.sampled at h ⊢
  dsimp only at h ⊢
  rw [trimNewlines_push]
  exact h

/-- Samples that are written differently are read back, and so is every other value. -/
theorem Codec.roundTrips_sampled {samples : List (T × ByteArray)}
    (hsamples : ∀ sample ∈ samples, IsSample sample.2)
    (hapart : ∀ first ∈ samples, ∀ second ∈ samples,
      first.2.data.toList = second.2.data.toList → first = second) :
    (Codec.sampled samples).RoundTrips := by
  intro value
  unfold Codec.sampled
  dsimp only
  cases hfound : samples.find? fun sample => sample.1 == value with
  | some sample =>
      have hmem : sample ∈ samples := List.mem_of_find?_eq_some hfound
      have hvalue : sample.1 = value := beq_iff_eq.mp (List.find?_some hfound :)
      have hread : samples.find?
          (fun other => other.2.data.toList == trimNewlines sample.2) = some sample := by
        rw [(hsamples sample hmem).1]
        -- Whichever sample has these bytes is this one.
        cases hother : samples.find? fun other => other.2.data.toList == sample.2.data.toList with
        | none =>
            have hnot := List.find?_eq_none.mp hother sample hmem
            exact absurd (beq_self_eq_true _) hnot
        | some other =>
            have hbytes : other.2.data.toList = sample.2.data.toList :=
              beq_iff_eq.mp (List.find?_some hother :)
            rw [hapart other (List.mem_of_find?_eq_some hother) sample hmem hbytes]
      refine ⟨sample.2, rfl, ?_⟩
      rw [hread, ← hvalue]
  | none =>
      have hread : samples.find?
          (fun other => other.2.data.toList == trimNewlines (unary value)) = none := by
        refine List.find?_eq_none.mpr fun other hother hbytes => ?_
        rw [trimNewlines_unary] at hbytes
        -- It would start as the values that are no sample do.
        have hlist : other.2.data.toList = (unary value).data.toList := beq_iff_eq.mp hbytes
        have hhead := (hsamples other hother).2
        rw [hlist] at hhead
        exact hhead rfl
      have hexists : ∃ other : T,
          (unary other).data.toList = trimNewlines (unary value) :=
        ⟨value, (trimNewlines_unary value).symm⟩
      refine ⟨unary value, rfl, ?_⟩
      rw [hread]
      dsimp only
      rw [dif_pos hexists]
      have hchosen := hexists.choose_spec.trans (trimNewlines_unary value)
      exact congrArg Except.ok (unary_injective hchosen)

/-- Where the samples are UTF-8, so is whatever is written. -/
theorem Codec.writesUtf8_sampled {samples : List (T × ByteArray)}
    (h : ∀ sample ∈ samples, sample.2.IsValidUTF8) : (Codec.sampled samples).WritesUtf8 := by
  intro value bytes hline
  unfold Codec.line Codec.sampled at hline
  dsimp only at hline
  cases hfound : samples.find? fun sample => sample.1 == value with
  | some sample =>
      rw [hfound] at hline
      cases hline
      exact isValidUTF8_push (h sample (List.mem_of_find?_eq_some hfound))
  | none =>
      rw [hfound] at hline
      cases hline
      exact isValidUTF8_push (isValidUTF8_unary value)

end Sampled
end Library
end SaasFabric
