import SaasFabric.ClientModel.RedirectUri
import SaasFabric.Library.Fallible

/-!
# Which hosts are public

The decision tree of `host_kind::classify` asks about the whole host, about its labels and about
an address it might spell.  Read by labels it comes to this: every label is one, there are two
of them at least, and the first and the last are none of the names that mean something else.
-/

namespace SaasFabric
namespace ClientModel

open Library (forM_eq_ok)

/-! ## Labels -/

section Labels

variable {host first last : List Char}

theorem splitOn_singleton {name : List Char} (h : host.splitOn '.' = [name]) : name = host := by
  have hjoin : ['.'].intercalate (host.splitOn '.') = host := List.intercalate_splitOn '.'
  rw [h] at hjoin
  simpa using hjoin

/-- A dot cuts the labels before it from the labels after it. -/
theorem splitOn_append_dot (before after : List Char) :
    (before ++ '.' :: after).splitOn '.' = before.splitOn '.' ++ after.splitOn '.' := by
  rw [List.splitOn_eq_splitOnP, List.splitOn_eq_splitOnP, List.splitOn_eq_splitOnP]
  exact List.splitOnP_append_cons before after (by simp)

theorem splitOn_of_not_mem {name : List Char} (h : '.' ∉ name) : name.splitOn '.' = [name] :=
  List.splitOn_eq_singleton h

/-- The last of two labels or more stands after a dot. -/
theorem suffix_dot_iff (hlast : '.' ∉ last) :
    '.' :: last <:+ host ↔
      2 ≤ (host.splitOn '.').length ∧ (host.splitOn '.').getLast? = some last := by
  constructor
  · rintro ⟨before, rfl⟩
    have hpos := List.length_pos_iff.mpr (List.splitOn_ne_nil '.' before)
    rw [splitOn_append_dot, splitOn_of_not_mem hlast, List.length_append, List.length_singleton,
      List.getLast?_concat]
    exact ⟨by omega, rfl⟩
  · rintro ⟨hlength, hget⟩
    obtain ⟨names, hnames⟩ := List.getLast?_eq_some_iff.mp hget
    induction host generalizing names with
    | nil => simp at hlength
    | cons c rest ih =>
      rw [List.splitOn_cons_eq_if_modifyHead] at hnames hlength hget
      obtain ⟨name, others, hrest⟩ := List.exists_cons_of_ne_nil (List.splitOn_ne_nil '.' rest)
      by_cases hc : (c == '.') = true
      · rw [if_pos hc] at hnames hlength
        rw [beq_iff_eq] at hc
        subst hc
        cases names with
        | nil =>
          rw [hrest] at hnames
          exact absurd hnames (by simp)
        | cons first names =>
          have htail := (List.cons.inj hnames).2
          cases names with
          | nil => exact ⟨[], by rw [← splitOn_singleton htail]; rfl⟩
          | cons second names =>
            have hsuffix := ih (by rw [htail]; simp)
              (by rw [htail]; exact List.getLast?_concat) (second :: names) htail
            exact hsuffix.trans (List.suffix_cons _ _)
      · rw [if_neg hc, hrest, List.modifyHead_cons] at hnames hlength
        cases names with
        | nil =>
          rw [List.nil_append, List.cons.injEq] at hnames
          rw [hnames.2] at hlength
          simp at hlength
        | cons first names =>
          have htail := (List.cons.inj hnames).2
          have hrest' : rest.splitOn '.' = (name :: names) ++ [last] := by
            rw [hrest, htail]
            rfl
          have hsuffix := ih (by rw [hrest']; simp)
            (by rw [hrest']; exact List.getLast?_concat) (name :: names) hrest'
          exact hsuffix.trans (List.suffix_cons _ _)

/-- The first of two labels or more stands before a dot. -/
theorem prefix_dot_iff (hfirst : '.' ∉ first) :
    first ++ ['.'] <+: host ↔
      2 ≤ (host.splitOn '.').length ∧ (host.splitOn '.').head? = some first := by
  constructor
  · rintro ⟨after, rfl⟩
    have hpos := List.length_pos_iff.mpr (List.splitOn_ne_nil '.' after)
    rw [List.append_assoc, List.singleton_append, splitOn_append_dot, splitOn_of_not_mem hfirst,
      List.singleton_append, List.length_cons]
    exact ⟨by omega, rfl⟩
  · rintro ⟨hlength, hget⟩
    obtain ⟨names, hnames⟩ := List.head?_eq_some_iff.mp hget
    induction host generalizing first with
    | nil => simp at hlength
    | cons c rest ih =>
      rw [List.splitOn_cons_eq_if_modifyHead] at hnames hlength
      obtain ⟨name, others, hrest⟩ := List.exists_cons_of_ne_nil (List.splitOn_ne_nil '.' rest)
      by_cases hc : (c == '.') = true
      · rw [if_pos hc] at hnames
        rw [beq_iff_eq] at hc
        subst hc
        rw [← (List.cons.inj hnames).1]
        exact ⟨rest, rfl⟩
      · rw [if_neg hc, hrest, List.modifyHead_cons] at hnames hlength
        obtain ⟨hname, hothers⟩ := List.cons.inj hnames
        subst hname
        have hmem : '.' ∉ name := fun h => hfirst (List.mem_cons_of_mem c h)
        obtain ⟨after, hafter⟩ := ih hmem (by rw [hrest]; exact hlength) (by rw [hrest]; rfl)
          (by rw [hrest, hothers])
        exact ⟨after, by rw [← hafter]; rfl⟩

theorem mem_label_or_dot {c : Char} (h : c ∈ host) :
    c = '.' ∨ ∃ label ∈ host.splitOn '.', c ∈ label := by
  induction host with
  | nil => exact absurd h List.not_mem_nil
  | cons other rest ih =>
    obtain ⟨name, others, hrest⟩ := List.exists_cons_of_ne_nil (List.splitOn_ne_nil '.' rest)
    rw [List.splitOn_cons_eq_if_modifyHead]
    by_cases hother : (other == '.') = true
    · rw [if_pos hother]
      obtain rfl | hmem := List.mem_cons.mp h
      · exact .inl (beq_iff_eq.mp hother)
      · obtain hdot | ⟨label, hlabel, hc⟩ := ih hmem
        · exact .inl hdot
        · exact .inr ⟨label, List.mem_cons_of_mem _ hlabel, hc⟩
    · rw [if_neg hother, hrest, List.modifyHead_cons]
      obtain rfl | hmem := List.mem_cons.mp h
      · exact .inr ⟨c :: name, List.mem_cons_self, List.mem_cons_self⟩
      · obtain hdot | ⟨label, hlabel, hc⟩ := ih hmem
        · exact .inl hdot
        · rw [hrest] at hlabel
          obtain rfl | hothers := List.mem_cons.mp hlabel
          · exact .inr ⟨_, List.mem_cons_self, List.mem_cons_of_mem _ hc⟩
          · exact .inr ⟨label, List.mem_cons_of_mem _ hothers, hc⟩

end Labels

/-! ## Addresses end in a number -/

section Addresses

variable {host input rest : List Char}

theorem isDigit_of_toDigit {c : Char} (h : (toDigit 10 c).isSome) : c.isDigit = true := by
  by_contra hdigit
  unfold toDigit at h
  rw [if_neg hdigit] at h
  split at h
  · next hlower =>
    have hlow : ('a' : Char).toNat ≤ c.toNat := hlower.1
    have ha : ('a' : Char).toNat = 97 := rfl
    rw [Option.filter_some, if_neg (by simp)] at h
    exact absurd h nofun
  · split at h
    · next hupper =>
      have hlow : ('A' : Char).toNat ≤ c.toNat := hupper.1
      have ha : ('A' : Char).toNat = 65 := rfl
      rw [Option.filter_some, if_neg (by simp)] at h
      exact absurd h nofun
    · exact absurd h nofun

theorem isDigit_of_octal {c : Char} (h : (toDigit 8 c).isSome) : c.isDigit = true := by
  apply isDigit_of_toDigit
  unfold toDigit at h ⊢
  obtain ⟨digit, hdigit⟩ := Option.isSome_iff_exists.mp h
  obtain ⟨hsome, hlt⟩ := Option.filter_eq_some_iff.mp hdigit
  rw [hsome, Option.filter_some, if_pos (by simp at hlt ⊢; omega)]
  rfl

theorem suffix_of_readNumber {radix maxDigits bound : Nat} {zero : Bool} {value : Nat}
    (h : readNumber radix maxDigits bound zero input = some (value, rest)) :
    input = (input.takeWhile fun c => (toDigit radix c).isSome) ++ rest ∧
      (input.takeWhile fun c => (toDigit radix c).isSome) ≠ [] := by
  unfold readNumber at h
  dsimp only at h
  split at h
  · exact absurd h nofun
  split at h
  · exact absurd h nofun
  next hpos =>
  split at h
  · exact absurd h nofun
  split at h
  · obtain ⟨-, rfl⟩ := Prod.mk.inj (Option.some.inj h)
    constructor
    · generalize hdigits : (input.takeWhile fun c => (toDigit radix c).isSome) = digits
      have hstarts : digits <+: input := hdigits ▸ List.takeWhile_prefix _
      obtain ⟨after, hafter⟩ := hstarts
      rw [← hafter, List.drop_left]
    · intro hnil
      rw [hnil] at hpos
      exact hpos rfl
  · exact absurd h nofun

theorem readGivenChar_eq_some {target : Char} :
    readGivenChar target input = some rest ↔ input = target :: rest := by
  cases input with
  | nil => exact iff_of_false nofun nofun
  | cons c input =>
    rw [readGivenChar, List.cons.injEq]
    split <;> simp [*]

/-- What an octet leaves is a suffix of what it was read from. -/
theorem suffix_of_readOctet {index value : Nat} (h : readOctet index input = some (value, rest)) :
    rest <:+ input := by
  unfold readOctet readSeparator at h
  split at h
  · obtain ⟨after, hafter, hnumber⟩ := Option.bind_eq_some_iff.mp h
    rw [readGivenChar_eq_some] at hafter
    obtain ⟨happend, -⟩ := suffix_of_readNumber hnumber
    rw [hafter]
    exact List.IsSuffix.trans ⟨_, happend.symm⟩ (List.suffix_cons _ _)
  · obtain ⟨happend, -⟩ := suffix_of_readNumber h
    exact ⟨_, happend.symm⟩

/-- An address of four octets, read to its end, ends in a label of digits. -/
theorem endsInANumber_of_readIpv4Addr {octets : Nat × Nat × Nat × Nat}
    (h : readIpv4Addr host = some (octets, [])) :
    (host.splitOn '.').getLast?.any endsInANumber = true := by
  unfold readIpv4Addr at h
  simp only [Option.bind_eq_bind, Option.bind_eq_some_iff, Prod.exists] at h
  obtain ⟨a, first, hfirst, b, second, hsecond, c, third, hthird, d, fourth, hfourth, hlast⟩ := h
  have hfour : fourth = [] := (Prod.mk.inj (Option.some.inj hlast)).2
  subst hfour
  have hsuffix := (suffix_of_readOctet hthird).trans
    ((suffix_of_readOctet hsecond).trans (suffix_of_readOctet hfirst))
  unfold readOctet readSeparator at hfourth
  rw [if_pos (by omega)] at hfourth
  obtain ⟨after, hafter, hnumber⟩ := Option.bind_eq_some_iff.mp hfourth
  rw [readGivenChar_eq_some] at hafter
  obtain ⟨happend, hne⟩ := suffix_of_readNumber hnumber
  rw [List.append_nil] at happend
  rw [← happend] at hne
  have hdigits : ∀ c ∈ after, c.isDigit = true := by
    intro c hc
    rw [happend] at hc
    exact isDigit_of_toDigit
      (List.mem_takeWhile_imp (p := fun c => (toDigit 10 c).isSome) hc)
  have hdot : '.' ∉ after := fun hmem => absurd (hdigits _ hmem) (by decide)
  rw [hafter] at hsuffix
  rw [((suffix_dot_iff hdot).mp hsuffix).2, Option.any_some, endsInANumber, Bool.or_eq_true]
  refine .inr ?_
  rw [Bool.and_eq_true, Bool.not_eq_true', List.isEmpty_eq_false_iff]
  exact ⟨hne, List.all_eq_true.mpr hdigits⟩

/-- Without a colon no address of eight segments is read. -/
theorem readIpv6Addr_of_no_colon (h : ':' ∉ host) : readIpv6Addr host = none := by
  have hstop : ∀ left index input, ':' ∉ input →
      readGroups left (index + 1) input = ([], false, input) := by
    intro left index input hcolon
    have hgiven : readGivenChar ':' input = none := by
      rw [Option.eq_none_iff_forall_ne_some]
      intro rest hrest
      rw [readGivenChar_eq_some] at hrest
      exact hcolon (hrest ▸ List.mem_cons_self)
    cases left with
    | zero => rfl
    | succ left => simp [readGroups, readSeparator, hgiven]
  have hmem : ∀ {rest : List Char}, rest <:+ host → ':' ∉ rest :=
    fun hsuffix hcolon => h (hsuffix.subset hcolon)
  have hhead : (readGroups 8 0 host).1.length ≤ 2 ∧ (readGroups 8 0 host).2.2 <:+ host := by
    unfold readGroups readSeparator
    simp only [Nat.lt_irrefl, gt_iff_lt, if_false, Nat.zero_lt_succ, if_true]
    split
    · next a b c d rest hrest =>
      refine ⟨Nat.le_refl 2, ?_⟩
      unfold readIpv4Addr at hrest
      simp only [Option.bind_eq_bind, Option.bind_eq_some_iff, Prod.exists] at hrest
      obtain ⟨_, _, hfirst, _, _, hsecond, _, _, hthird, _, _, hfourth, hlast⟩ := hrest
      have hrest := (Prod.mk.inj (Option.some.inj hlast)).2
      subst hrest
      exact (suffix_of_readOctet hfourth).trans ((suffix_of_readOctet hthird).trans
        ((suffix_of_readOctet hsecond).trans (suffix_of_readOctet hfirst)))
    · split
      · next group rest hrest =>
        obtain ⟨happend, -⟩ := suffix_of_readNumber hrest
        have hsuffix : rest <:+ host := ⟨_, happend.symm⟩
        rw [hstop 7 0 rest (hmem hsuffix)]
        exact ⟨by simp, hsuffix⟩
      · exact ⟨Nat.zero_le 2, List.suffix_refl _⟩
  have hgiven : readGivenChar ':' (readGroups 8 0 host).2.2 = none := by
    rw [Option.eq_none_iff_forall_ne_some]
    intro rest hrest
    rw [readGivenChar_eq_some] at hrest
    exact hmem hhead.2 (hrest ▸ List.mem_cons_self)
  unfold readIpv6Addr
  have hlength : (readGroups 8 0 host).1.length ≠ 8 := by omega
  simp only [hlength, if_false, hgiven]
  split <;> rfl

/-- What `inet_aton` reads as a number is one to a browser. -/
theorem endsInANumber_of_parseCInteger {label : List Char} {value : Nat}
    (h : parseCInteger label = some value) : endsInANumber label = true := by
  unfold parseCInteger at h
  split at h
  · next hex => rfl
  · rw [endsInANumber, Bool.or_eq_true, Bool.and_eq_true, Bool.not_eq_true',
      List.isEmpty_eq_false_iff]
    refine .inr ?_
    split at h
    · next hzero =>
      split at h
      · exact absurd h nofun
      · next hall =>
        rw [Bool.not_eq_true', Bool.not_eq_false] at hall
        refine ⟨?_, List.all_eq_true.mpr fun c hc =>
          isDigit_of_octal (List.all_eq_true.mp hall c hc)⟩
        rintro rfl
        exact absurd hzero (by decide)
    · split at h
      · next hdigits =>
        rw [Bool.and_eq_true, Bool.not_eq_true', List.isEmpty_eq_false_iff] at hdigits
        exact hdigits
      · exact absurd h nofun

/-- An address without a colon ends in a number. -/
theorem endsInANumber_of_ipParse {address : IpAddr} (hcolon : ':' ∉ host)
    (h : ipParse host = some address) :
    (host.splitOn '.').getLast?.any endsInANumber = true := by
  unfold ipParse at h
  split at h
  · next parsed hparsed =>
    unfold parseIpAddr at hparsed
    split at hparsed
    · next read hread =>
      unfold readIpAddr at hread
      rw [readIpv6Addr_of_no_colon hcolon, Option.map_none, Option.or_none,
        Option.map_eq_some_iff] at hread
      obtain ⟨⟨octets, rest⟩, hoctets, heq⟩ := hread
      have hrest : rest = [] := (Prod.mk.inj heq).2
      exact endsInANumber_of_readIpv4Addr (hrest ▸ hoctets)
    · exact absurd hparsed nofun
  · unfold parseIpv4 at h
    simp only [Option.bind_eq_bind, Option.bind_eq_some_iff] at h
    obtain ⟨values, hvalues, -⟩ := h
    have hlabels := List.dropLast_concat_getLast (List.splitOn_ne_nil '.' host)
    generalize (host.splitOn '.').dropLast = names at hlabels
    generalize (host.splitOn '.').getLast _ = last at hlabels
    rw [← hlabels, List.getLast?_concat, Option.any_some]
    rw [← hlabels, List.mapM_append] at hvalues
    simp only [Option.bind_eq_bind, Option.bind_eq_some_iff, List.mapM_cons, List.mapM_nil] at hvalues
    obtain ⟨_, -, _, ⟨value, hvalue, -⟩, -⟩ := hvalues
    exact endsInANumber_of_parseCInteger hvalue

end Addresses

/-! ## The production rule -/

/-- A label of a registered domain. -/
structure HostLabel (label : List Char) : Prop where
  ne_nil : label ≠ []
  length_le : label.length ≤ 63
  characters : ∀ c ∈ label, isHostCharacter c = true
  head_ne : label.head? ≠ some '-'
  getLast_ne : label.getLast? ≠ some '-'

/-- The top-level domains that are none of a public host's. -/
def withheld : List (List Char) :=
  ["localhost".toList, "internal".toList, "local".toList, "test".toList, "example".toList,
    "invalid".toList]

/-- Neither end of the name says that it is something else than a public host. -/
def Unreserved (host : List Char) : Prop :=
  (host.splitOn '.').head? ≠ some "localhost".toList ∧
    ∀ last, (host.splitOn '.').getLast? = some last →
      last ∉ withheld ∧ endsInANumber last = false

instance (host : List Char) : Decidable (Unreserved host) :=
  decidable_of_iff ((host.splitOn '.').head? ≠ some "localhost".toList ∧
    (host.splitOn '.').getLast?.all fun last =>
      decide (last ∉ withheld) && !endsInANumber last) (by
    unfold Unreserved
    cases (host.splitOn '.').getLast? <;> simp)

/-- A name in the public domain name system. -/
structure PublicHost (host : List Char) : Prop where
  labels : ∀ label ∈ host.splitOn '.', HostLabel label
  two_le : 2 ≤ (host.splitOn '.').length
  length_le : host.length ≤ 253
  unreserved : Unreserved host

section Classifying

variable {host : List Char}

theorem labelCheck_eq_ok {label : List Char} (hne : label ≠ []) :
    labelCheck label = .ok () ↔ HostLabel label := by
  unfold labelCheck
  constructor
  · intro h
    split at h
    · exact absurd h nofun
    next hlength =>
    split at h
    · exact absurd h nofun
    next hfind =>
    split at h
    · exact absurd h nofun
    next hends =>
    rw [Bool.or_eq_true, not_or, beq_iff_eq, beq_iff_eq] at hends
    refine ⟨hne, by omega, fun c hc => ?_, hends.1, hends.2⟩
    simpa using List.find?_eq_none.mp hfind c hc
  · intro h
    have hfind : label.find? (fun character => !isHostCharacter character) = none :=
      List.find?_eq_none.mpr fun c hc => by simp [h.characters c hc]
    rw [if_neg (Nat.not_lt.mpr h.length_le), hfind]
    show (if _ then _ else _) = _
    rw [if_neg]
    rw [Bool.or_eq_true, not_or, beq_iff_eq, beq_iff_eq]
    exact ⟨h.head_ne, h.getLast_ne⟩

theorem toNat_lt_of_isHostCharacter {c : Char} (h : isHostCharacter c = true) : c.toNat < 128 := by
  simp only [isHostCharacter, Text.isLower_eq, Char.isDigit, Bool.or_eq_true, Bool.and_eq_true,
    decide_eq_true_eq, beq_iff_eq] at h
  obtain (⟨-, hle⟩ | ⟨-, hle⟩) | rfl := h
  · have hnat := UInt32.le_iff_toNat_le.mp hle
    exact Nat.lt_of_le_of_lt hnat (by decide)
  · have hnat := UInt32.le_iff_toNat_le.mp hle
    exact Nat.lt_of_le_of_lt hnat (by decide)
  · decide

/-- Every character of a name is a host character or a dot. -/
theorem character_of_labels (h : ∀ label ∈ host.splitOn '.', HostLabel label) {c : Char}
    (hc : c ∈ host) : c = '.' ∨ isHostCharacter c = true := by
  obtain hdot | ⟨label, hlabel, hmem⟩ := mem_label_or_dot hc
  · exact .inl hdot
  · exact .inr ((h label hlabel).characters c hmem)

theorem not_mem_of_labels (h : ∀ label ∈ host.splitOn '.', HostLabel label) {c : Char}
    (hdot : c ≠ '.') (hcharacter : isHostCharacter c = false) : c ∉ host := by
  intro hc
  obtain heq | hhost := character_of_labels h hc
  · exact hdot heq
  · rw [hcharacter] at hhost
    exact Bool.false_ne_true hhost

theorem registeredDomainCheck_eq_ok (hne : ∀ label ∈ host.splitOn '.', label ≠ []) :
    registeredDomainCheck host = .ok () ↔
      (∀ label ∈ host.splitOn '.', HostLabel label) ∧ 2 ≤ (host.splitOn '.').length ∧
        host.length ≤ 253 ∧ (host.splitOn '.').getLast?.any endsInANumber = false := by
  have hlabels : (host.splitOn '.').forM labelCheck = .ok () ↔
      ∀ label ∈ host.splitOn '.', HostLabel label := by
    rw [forM_eq_ok]
    exact forall₂_congr fun label hmem => labelCheck_eq_ok (hne label hmem)
  unfold registeredDomainCheck
  constructor
  · intro h
    split at h
    · exact absurd h nofun
    split at h
    · exact absurd h nofun
    split at h
    · exact absurd h nofun
    next hlength =>
    split at h
    · exact absurd h nofun
    next htwo =>
    obtain ⟨⟨⟩, hforM, hrest⟩ := Library.bind_eq_ok.mp h
    split at hrest
    · exact absurd hrest nofun
    next hnumber =>
    exact ⟨hlabels.mp hforM, by omega, by omega, Bool.eq_false_of_not_eq_true hnumber⟩
  · rintro ⟨hall, htwo, hlength, hnumber⟩
    have hascii : (host.all fun c => decide (c.toNat < 128)) = true := by
      rw [List.all_eq_true]
      intro c hc
      obtain rfl | hcharacter := character_of_labels hall hc
      · decide
      · exact decide_eq_true (toNat_lt_of_isHostCharacter hcharacter)
    have hcolon : host.contains ':' = false := by
      rw [Bool.eq_false_iff, ne_eq, List.contains_iff_mem]
      exact not_mem_of_labels hall (by decide) (by decide)
    rw [hascii, hcolon, hlabels.mpr hall, hnumber, if_neg (by decide), if_neg (by decide),
      if_neg (by omega), if_neg (by omega)]
    rfl

/-- A name of two labels or more sits under a top-level domain exactly when that is its last. -/
theorem isUnder_iff {tld : List Char} (hdot : '.' ∉ tld) (htwo : 2 ≤ (host.splitOn '.').length) :
    isUnder tld host = true ↔ (host.splitOn '.').getLast? = some tld := by
  unfold isUnder
  rw [Bool.or_eq_true, beq_iff_eq, List.isSuffixOf_iff_suffix, suffix_dot_iff hdot]
  constructor
  · rintro (rfl | ⟨-, hlast⟩)
    · rw [splitOn_of_not_mem hdot, List.length_singleton] at htwo
      omega
    · exact hlast
  · exact fun hlast => .inr ⟨htwo, hlast⟩

theorem specialUseCheck_eq_ok (htwo : 2 ≤ (host.splitOn '.').length) :
    specialUseCheck host = .ok () ↔
      ∀ tld ∈ RESERVED.map fun reserved => reserved.1.toList,
        (host.splitOn '.').getLast? ≠ some tld := by
  have hdots : ∀ reserved ∈ RESERVED, '.' ∉ reserved.1.toList := by decide
  unfold specialUseCheck
  constructor
  · intro h tld hmem
    split at h
    · exact absurd h nofun
    next hfind =>
    obtain ⟨reserved, hreserved, rfl⟩ := List.mem_map.mp hmem
    rw [Ne, ← isUnder_iff (hdots reserved hreserved) htwo]
    exact List.find?_eq_none.mp hfind reserved hreserved
  · intro h
    have hfind : RESERVED.find? (fun reserved => isUnder reserved.1.toList host) = none := by
      refine List.find?_eq_none.mpr fun reserved hreserved hunder => ?_
      rw [isUnder_iff (hdots reserved hreserved) htwo] at hunder
      exact h _ (List.mem_map_of_mem hreserved) hunder
    rw [hfind]

/-- A name that ends in no number reaches the machine only under its own name. -/
theorem reachesLoopback_iff (hcolon : ':' ∉ host) (htwo : 2 ≤ (host.splitOn '.').length)
    (hnumber : (host.splitOn '.').getLast?.any endsInANumber = false) :
    reachesLoopback host = true ↔
      (host.splitOn '.').head? = some "localhost".toList ∨
        (host.splitOn '.').getLast? = some "localhost".toList := by
  have hparse : ipParse host = none := by
    rw [Option.eq_none_iff_forall_ne_some]
    intro address haddress
    rw [endsInANumber_of_ipParse hcolon haddress] at hnumber
    exact Bool.false_ne_true hnumber.symm
  have hfirst : "localhost".toList ++ ['.'] <+: host ↔ _ := prefix_dot_iff (by decide)
  have hlast : '.' :: "localhost".toList <:+ host ↔ _ := suffix_dot_iff (by decide)
  unfold reachesLoopback
  rw [hparse]
  show (_ || _) = true ↔ _
  rw [Bool.or_eq_true, List.isPrefixOf_iff_prefix, reachesLocalhost, List.isSuffixOf_iff_suffix]
  exact or_congr (hfirst.trans (and_iff_right htwo)) (hlast.trans (and_iff_right htwo))

/-- The production kind is what the rules about the two ends leave of the public names. -/
theorem hostClassify_eq_https {secure : Bool} :
    hostClassify host secure = .ok .https ↔ secure = true ∧ PublicHost host := by
  have hinternal : isPrivateNetwork host = isUnder "internal".toList host := rfl
  unfold hostClassify
  constructor
  · intro h
    split at h
    · exact absurd h nofun
    next hempty =>
    have hne : ∀ label ∈ host.splitOn '.', label ≠ [] := by
      intro label hmem hnil
      refine hempty (List.any_eq_true.mpr ⟨label, hmem, ?_⟩)
      rw [hnil]
      rfl
    split at h
    · exact absurd h nofun
    split at h
    · exact absurd h nofun
    next hreach =>
    split at h
    · exact absurd h nofun
    next hprivate =>
    split at h
    · exact absurd h nofun
    next hsecure =>
    obtain ⟨⟨⟩, hspecial, hrest⟩ := Library.bind_eq_ok.mp h
    obtain ⟨⟨⟩, hregistered, -⟩ := Library.bind_eq_ok.mp hrest
    -- What the earlier rules refuse is read through the labels that this one admits.
    obtain ⟨hlabels, htwo, hlength, hnumber⟩ := (registeredDomainCheck_eq_ok hne).mp hregistered
    have hcolon := not_mem_of_labels hlabels (c := ':') (by decide) (by decide)
    rw [reachesLoopback_iff hcolon htwo hnumber, not_or] at hreach
    rw [hinternal, isUnder_iff (by decide) htwo] at hprivate
    rw [specialUseCheck_eq_ok htwo] at hspecial
    refine ⟨by simpa using hsecure, hlabels, htwo, hlength, hreach.1,
      fun last hlast => ⟨?_, ?_⟩⟩
    · intro hmem
      rw [hlast] at hreach hprivate hspecial
      have hreserved : last = "localhost".toList ∨ last = "internal".toList ∨
          last ∈ RESERVED.map fun reserved => reserved.1.toList := by
        have hnames : RESERVED.map (fun reserved => reserved.1.toList) =
            ["local".toList, "test".toList, "example".toList, "invalid".toList] := rfl
        rw [hnames]
        simpa only [withheld, List.mem_cons] using hmem
      obtain heq | heq | hspecialUse := hreserved
      · exact hreach.2 (congrArg some heq)
      · exact hprivate (congrArg some heq)
      · exact hspecial last hspecialUse rfl
    · rwa [hlast, Option.any_some] at hnumber
  · rintro ⟨rfl, hlabels, htwo, hlength, hfirst, hends⟩
    have hlast := List.getLast?_eq_some_getLast (List.splitOn_ne_nil '.' host)
    generalize (host.splitOn '.').getLast _ = last at hlast
    obtain ⟨hreserved, hnumber⟩ := hends last hlast
    have hne : ∀ label ∈ host.splitOn '.', label ≠ [] :=
      fun label hmem => (hlabels label hmem).ne_nil
    have hany : (host.splitOn '.').getLast?.any endsInANumber = false := by
      rw [hlast, Option.any_some, hnumber]
    have hcolon := not_mem_of_labels hlabels (c := ':') (by decide) (by decide)
    have hempty : ((host.splitOn '.').any List.isEmpty) = false := by
      rw [Bool.eq_false_iff, ne_eq, List.any_eq_true]
      rintro ⟨label, hmem, hnil⟩
      exact hne label hmem (List.isEmpty_iff.mp hnil)
    -- Every rule about the last label refuses a name that is withheld.
    have hwithheld : ∀ name ∈ withheld, (host.splitOn '.').getLast? ≠ some name := by
      intro name hname heq
      rw [hlast, Option.some_inj] at heq
      exact hreserved (heq ▸ hname)
    have hloopback : LOOPBACK.contains host = false := by
      rw [Bool.eq_false_iff, ne_eq, List.contains_iff_mem]
      intro hmem
      simp only [LOOPBACK, List.mem_cons, List.not_mem_nil, or_false] at hmem
      obtain rfl | rfl | rfl := hmem
      · exact absurd htwo (by decide)
      · exact absurd hany (by decide)
      · exact absurd htwo (by decide)
    have hreach : reachesLoopback host = false := by
      rw [Bool.eq_false_iff, ne_eq, reachesLoopback_iff hcolon htwo hany, not_or]
      exact ⟨hfirst, hwithheld _ (by decide)⟩
    have hprivate : isPrivateNetwork host = false := by
      rw [Bool.eq_false_iff, ne_eq, hinternal, isUnder_iff (by decide) htwo]
      exact hwithheld _ (by decide)
    have hspecial : specialUseCheck host = .ok () := by
      rw [specialUseCheck_eq_ok htwo]
      intro tld hmem
      exact hwithheld tld (by
        have hsub : ∀ tld ∈ RESERVED.map (fun reserved => reserved.1.toList), tld ∈ withheld := by
          decide
        exact hsub tld hmem)
    have hregistered := (registeredDomainCheck_eq_ok hne).mpr ⟨hlabels, htwo, hlength, hany⟩
    rw [hempty, hloopback, hreach, hprivate]
    simp only [Bool.false_eq_true, Bool.not_true, if_false]
    rw [hspecial, hregistered]
    rfl

end Classifying

end ClientModel
end SaasFabric
