import SaasFabric.Core.Text

/-!
# A text's bytes

A text in UTF-8 is read as itself, also where what is no UTF-8 would be replaced.
-/

namespace SaasFabric
namespace Text

theorem leadsThree_iff {first second : UInt8} : leadsThree first second = true ↔
    (first.toNat = 0xE0 ∧ 0xA0 ≤ second.toNat ∧ second.toNat ≤ 0xBF) ∨
      (first.toNat = 0xED ∧ 0x80 ≤ second.toNat ∧ second.toNat ≤ 0x9F) ∨
      ((0xE1 ≤ first.toNat ∧ first.toNat ≤ 0xEC ∨ 0xEE ≤ first.toNat ∧ first.toNat ≤ 0xEF) ∧
        0x80 ≤ second.toNat ∧ second.toNat ≤ 0xBF) := by
  simp only [leadsThree, isContinuation, Bool.or_eq_true, Bool.and_eq_true, decide_eq_true_eq,
    beq_iff_eq, ← UInt8.toNat_inj]
  have hE0 : (0xE0 : UInt8).toNat = 0xE0 := rfl
  have hED : (0xED : UInt8).toNat = 0xED := rfl
  omega

theorem leadsFour_iff {first second : UInt8} : leadsFour first second = true ↔
    (first.toNat = 0xF0 ∧ 0x90 ≤ second.toNat ∧ second.toNat ≤ 0xBF) ∨
      (first.toNat = 0xF4 ∧ 0x80 ≤ second.toNat ∧ second.toNat ≤ 0x8F) ∨
      (0xF1 ≤ first.toNat ∧ first.toNat ≤ 0xF3 ∧ 0x80 ≤ second.toNat ∧ second.toNat ≤ 0xBF) := by
  simp only [leadsFour, isContinuation, Bool.or_eq_true, Bool.and_eq_true, decide_eq_true_eq,
    beq_iff_eq, ← UInt8.toNat_inj]
  have hF0 : (0xF0 : UInt8).toNat = 0xF0 := rfl
  have hF4 : (0xF4 : UInt8).toNat = 0xF4 := rfl
  omega

theorem isContinuation_iff {byte : UInt8} :
    isContinuation byte = true ↔ 0x80 ≤ byte.toNat ∧ byte.toNat ≤ 0xBF := by
  simp [isContinuation]

theorem toNat_ofNat {value : Nat} (h : value < 256) : (UInt8.ofNat value).toNat = value :=
  UInt8.toNat_ofNat_of_lt' h

/-- What a character is encoded as is read as the character, and no further. -/
theorem decodeFirst_utf8EncodeChar (c : Char) (more : List UInt8) :
    ∃ first rest, String.utf8EncodeChar c = first :: rest ∧
      decodeFirst first (rest ++ more) = (c, rest.length) := by
  have hback : ∀ value, value = c.val.toNat → Char.ofNat value = c := by
    rintro _ rfl
    exact Char.ofNat_toNat c
  have hvalid : c.val.toNat < 0xD800 ∨ 0xDFFF < c.val.toNat ∧ c.val.toNat < 0x110000 := c.valid
  unfold String.utf8EncodeChar
  dsimp only
  -- From here on only the code point matters: how many bytes it takes, and each one's range.
  generalize c.val.toNat = value at hback hvalid
  have hsix : ∀ part, (UInt8.ofNat (part % 64 + 0x80)).toNat = part % 64 + 0x80 :=
    fun part => toNat_ofNat (by omega)
  split
  · have hfirst : (UInt8.ofNat value).toNat = value := toNat_ofNat (by omega)
    refine ⟨_, _, rfl, ?_⟩
    rw [decodeFirst.eq_def, if_pos (by omega), hfirst, hback _ rfl]
    rfl
  · split
    · have hfirst : (UInt8.ofNat (value / 64 % 32 + 0xC0)).toNat = value / 64 % 32 + 0xC0 :=
        toNat_ofNat (by omega)
      have hsecond := hsix value
      refine ⟨_, _, rfl, ?_⟩
      generalize UInt8.ofNat (value / 64 % 32 + 0xC0) = first at hfirst ⊢
      generalize UInt8.ofNat (value % 64 + 0x80) = second at hsecond ⊢
      have htwo : (leadsTwo first && isContinuation second) = true := by
        simp only [leadsTwo, Bool.and_eq_true, decide_eq_true_eq, isContinuation_iff]
        omega
      rw [decodeFirst.eq_def, if_neg (by omega), List.cons_append]
      dsimp only
      rw [if_pos htwo, hback]
      · rfl
      · unfold continued
        omega
    · split
      · have hfirst : (UInt8.ofNat (value / 4096 % 16 + 0xE0)).toNat = value / 4096 % 16 + 0xE0 :=
          toNat_ofNat (by omega)
        have hsecond := hsix (value / 64)
        have hthird := hsix value
        refine ⟨_, _, rfl, ?_⟩
        generalize UInt8.ofNat (value / 4096 % 16 + 0xE0) = first at hfirst ⊢
        generalize UInt8.ofNat (value / 64 % 64 + 0x80) = second at hsecond ⊢
        generalize UInt8.ofNat (value % 64 + 0x80) = third at hthird ⊢
        have htwo : ¬ (leadsTwo first && isContinuation second) = true := by
          simp only [leadsTwo, Bool.and_eq_true, decide_eq_true_eq, isContinuation_iff]
          omega
        have hthree : leadsThree first second = true := by
          rw [leadsThree_iff]
          omega
        rw [decodeFirst.eq_def, if_neg (by omega), List.cons_append]
        dsimp only
        rw [if_neg htwo, if_pos hthree, List.cons_append]
        dsimp only
        rw [if_pos (isContinuation_iff.mpr (by omega)), hback]
        · rfl
        · unfold continued
          omega
      · have hfirst : (UInt8.ofNat (value / 262144 % 8 + 0xF0)).toNat =
            value / 262144 % 8 + 0xF0 := toNat_ofNat (by omega)
        have hsecond := hsix (value / 4096)
        have hthird := hsix (value / 64)
        have hfourth := hsix value
        refine ⟨_, _, rfl, ?_⟩
        generalize UInt8.ofNat (value / 262144 % 8 + 0xF0) = first at hfirst ⊢
        generalize UInt8.ofNat (value / 4096 % 64 + 0x80) = second at hsecond ⊢
        generalize UInt8.ofNat (value / 64 % 64 + 0x80) = third at hthird ⊢
        generalize UInt8.ofNat (value % 64 + 0x80) = fourth at hfourth ⊢
        have htwo : ¬ (leadsTwo first && isContinuation second) = true := by
          simp only [leadsTwo, Bool.and_eq_true, decide_eq_true_eq, isContinuation_iff]
          omega
        have hthree : ¬ leadsThree first second = true := by
          rw [leadsThree_iff]
          omega
        have hfour : leadsFour first second = true := by
          rw [leadsFour_iff]
          omega
        have hlast : (isContinuation third && isContinuation fourth) = true := by
          simp only [Bool.and_eq_true, isContinuation_iff]
          omega
        rw [decodeFirst.eq_def, if_neg (by omega), List.cons_append]
        dsimp only
        rw [if_neg htwo, if_neg hthree, if_pos hfour, List.cons_append, List.cons_append]
        dsimp only
        rw [if_pos hlast, hback]
        · rfl
        · unfold continued
          omega

theorem decodeLossy_flatMap (text : List Char) :
    decodeLossy 0 (text.flatMap String.utf8EncodeChar) = text := by
  have hskip : ∀ taken more, decodeLossy taken.length (taken ++ more) = decodeLossy 0 more := by
    intro taken more
    induction taken with
    | nil => rfl
    | cons byte taken ih => exact ih
  induction text with
  | nil => rfl
  | cons c text ih =>
      obtain ⟨first, rest, hbytes, hfirst⟩ :=
        decodeFirst_utf8EncodeChar c (text.flatMap String.utf8EncodeChar)
      rw [List.flatMap_cons, hbytes, List.cons_append, decodeLossy, hfirst]
      dsimp only
      rw [hskip, ih]

/-- A text is read from its own bytes. -/
theorem fromUtf8Lossy_utf8 (text : String) :
    fromUtf8Lossy (text.toList.flatMap String.utf8EncodeChar) = text := by
  rw [fromUtf8Lossy, decodeLossy_flatMap, String.ofList_toList]

end Text
end SaasFabric
