import SaasFabric.Connector.TenantScoping
import SaasFabric.Core.Utf8
import SaasFabric.DataApi.Naming
import SaasFabric.Library.FormUrlencoded

/-!
# Query strings read back

What `parse_pairs` makes of pairs that were written as `application/x-www-form-urlencoded`, and
what the filter of an accepted query selects, beside the parameters the query string has.
-/

namespace SaasFabric
namespace DataApi

open Library (bind_eq_ok check_bind_eq_ok map_eq_ok)
open Library.FormUrlencoded (encode encodeByte encodePair encodeText not_mem_encodeText)

/-! ## Pairs -/

/-- The bytes `percent_decode` reads of some characters. -/
def readBytes (characters : List Char) : List UInt8 :=
  (characters.map fun c => if c = '+' then ' ' else c).flatMap String.utf8EncodeChar

@[simp] theorem readBytes_append (first second : List Char) :
    readBytes (first ++ second) = readBytes first ++ readBytes second := by
  simp [readBytes]

theorem percentDecode_ofList (characters : List Char) :
    percentDecode (String.ofList characters) =
      Text.fromUtf8Lossy (unescape (readBytes characters)) := by
  have hbytes : ((String.ofList characters).map fun c =>
      if c = '+' then ' ' else c).toUTF8.data.toList = readBytes characters := by
    rw [String.map_eq_internal, String.toList_ofList, String.toUTF8_eq_toByteArray,
      String.toByteArray_ofList]
    simp [List.utf8Encode, readBytes]
  rw [percentDecode, hbytes]

/-- A byte that starts no escape stands for itself. -/
theorem unescape_cons {byte : UInt8} (h : byte ≠ 0x25) (rest : List UInt8) :
    unescape (byte :: rest) = byte :: unescape rest := by
  rw [unescape.eq_def]
  split
  · rename_i heq
    exact absurd (List.cons.inj heq).1 h
  · rename_i heq
    cases heq
    rfl
  · rename_i heq
    cases heq

/-- A byte is read of these: it is there itself, or an escape that stands for it. -/
def standsFor (byte : UInt8) : List UInt8 → Bool
  | [first] => first == byte && byte != 0x25
  | [first, high, low] => first == 0x25 && hexEscape high low == some byte
  | _ => false

theorem unescape_of_standsFor {byte : UInt8} {bytes : List UInt8}
    (h : standsFor byte bytes = true) (rest : List UInt8) :
    unescape (bytes ++ rest) = byte :: unescape rest := by
  unfold standsFor at h
  split at h
  · rename_i first
    obtain ⟨hfirst, hbyte⟩ := (Bool.and_eq_true _ _).mp h
    rw [beq_iff_eq.mp hfirst]
    exact unescape_cons (bne_iff_ne.mp hbyte) rest
  · rename_i first high low
    obtain ⟨hfirst, hescape⟩ := (Bool.and_eq_true _ _).mp h
    rw [beq_iff_eq.mp hfirst]
    show unescape (0x25 :: high :: low :: rest) = _
    rw [unescape, beq_iff_eq.mp hescape]
  · cases h

theorem standsFor_encodeByte : ∀ code < 256,
    standsFor (UInt8.ofNat code)
      (readBytes (encodeByte (UInt8.ofNat code))) = true := by
  decide +kernel

/-- The bytes that were written are read. -/
theorem unescape_readBytes_flatMap (bytes : List UInt8) :
    unescape (readBytes (bytes.flatMap encodeByte)) = bytes := by
  induction bytes with
  | nil => rfl
  | cons byte bytes ih =>
      have hstands := standsFor_encodeByte byte.toNat byte.toNat_lt
      rw [UInt8.ofNat_toNat] at hstands
      rw [List.flatMap_cons, readBytes_append, unescape_of_standsFor hstands, ih]

theorem percentDecode_encodeText (text : String) :
    percentDecode (String.ofList (encodeText text)) = text := by
  rw [percentDecode_ofList, encodeText, unescape_readBytes_flatMap]
  exact Text.fromUtf8Lossy_utf8 text

/-- A name ends at the first `=`, since it has none itself. -/
theorem splitOnce_encodePair (pair : String × String) :
    Text.splitOnce '=' (String.ofList (encodePair pair)) =
      some (String.ofList (encodeText pair.1),
        String.ofList (encodeText pair.2)) := by
  have hname : ∀ c ∈ encodeText pair.1, (c != '=') = true := by
    intro c hc
    rw [bne_iff_ne]
    rintro rfl
    exact not_mem_encodeText (by simp) _ hc
  unfold Text.splitOnce
  rw [String.toList_ofList, encodePair, List.span_eq_takeWhile_dropWhile,
    List.takeWhile_append_of_pos hname, List.dropWhile_append_of_pos hname]
  simp

/-- The pairs that are written are read back. -/
theorem parsePairs_encode (pairs : List (String × String)) :
    parsePairs (encode pairs) = pairs := by
  cases hpairs : pairs with
  | nil => rfl
  | cons first rest =>
      have hseparated : ∀ text ∈ pairs.map encodePair, '&' ∉ text := by
        intro text htext
        obtain ⟨pair, -, rfl⟩ := List.mem_map.mp htext
        simp [encodePair, not_mem_encodeText]
      have hsplit : Text.split '&' (encode pairs) =
          pairs.map fun pair => String.ofList (encodePair pair) := by
        rw [Text.split, encode, String.toList_ofList,
          List.splitOn_intercalate _ hseparated (by simp [hpairs]), List.map_map]
        rfl
      have hnonempty : ∀ text ∈ pairs.map fun pair =>
          String.ofList (encodePair pair), (text != "") = true := by
        intro text htext
        obtain ⟨pair, -, rfl⟩ := List.mem_map.mp htext
        rw [bne_iff_ne]
        intro hempty
        have hlist := congrArg String.toList hempty
        simp [encodePair] at hlist
      rw [← hpairs, parsePairs, hsplit, List.filter_eq_self.mpr hnonempty, List.map_map]
      refine List.map_id'' (fun pair => ?_) pairs
      rw [Function.comp_apply, splitOnce_encodePair]
      simp [percentDecode_encodeText]

/-! ## Parameters -/

/-- The parameters that are no filter. -/
def isReserved (key : String) : Bool := ["limit", "offset", "sort", "select"].contains key

/-- A parameter that filters, and the field it names. -/
def Filters (pair : String × String) (field : FieldName) : Prop :=
  isReserved pair.1 = false ∧ field.value = Text.trim pair.1

theorem Filters.unique {pair : String × String} {field other : FieldName}
    (h : Filters pair field) (hother : Filters pair other) : field = other :=
  Identifier.ext (h.2.trans hother.2.symm)

/-- A row is described: each parameter that filters names a field of the row that holds the
parameter's value. -/
def Describes (raw : String) (row : Row) : Prop :=
  ∀ pair ∈ parsePairs raw, isReserved pair.1 = false →
    ∃ field, Filters pair field ∧ row.get field = some (.string pair.2)

/-- No field is filtered on twice, but for the same value. -/
def FiltersOnce (raw : String) : Prop :=
  ∀ first ∈ parsePairs raw, ∀ second ∈ parsePairs raw, ∀ field, Filters first field →
    Filters second field → first.2 = second.2

section Parsing

variable {permits : FieldName → Bool} {query next : ListQuery} {pair : String × String}

/-- What one pair does to the filters: nothing where it is reserved, and otherwise it sets the
one of the field it names. -/
theorem filters_of_parsePair (h : ListQuery.parsePair permits query pair = .ok next) :
    (isReserved pair.1 = true ∧ next.filters = query.filters) ∨
      ∃ field, Filters pair field ∧ next.filters = query.filters.insert field pair.2 := by
  unfold ListQuery.parsePair at h
  obtain ⟨-, h⟩ := check_bind_eq_ok.mp h
  obtain ⟨-, h⟩ := check_bind_eq_ok.mp h
  unfold ListQuery.setParameter at h
  split at h
  · rename_i hkey
    obtain ⟨_, -, rfl⟩ := map_eq_ok.mp h
    exact Or.inl ⟨by rw [hkey]; decide, rfl⟩
  · rename_i hlimit
    split at h
    · rename_i hkey
      obtain ⟨_, -, rfl⟩ := map_eq_ok.mp h
      exact Or.inl ⟨by rw [hkey]; decide, rfl⟩
    · rename_i hoffset
      split at h
      · rename_i hkey
        obtain ⟨_, -, rfl⟩ := map_eq_ok.mp h
        exact Or.inl ⟨by rw [hkey]; decide, rfl⟩
      · rename_i hsort
        split at h
        · rename_i hkey
          obtain ⟨_, -, rfl⟩ := map_eq_ok.mp h
          exact Or.inl ⟨by rw [hkey]; decide, rfl⟩
        · rename_i hselect
          obtain ⟨field, hfield, rfl⟩ := map_eq_ok.mp h
          refine Or.inr ⟨field, ⟨?_, (parseField_eq_ok hfield).1⟩, rfl⟩
          simp [isReserved, hlimit, hoffset, hsort, hselect]

/-- What the filters of a query hold, of the pairs that were read: every value is that of a pair
that names the field, and every field that is named has one. -/
structure Holds (pairs : List (String × String)) (filters : BTreeMap FieldName String) : Prop where
  given : ∀ field value, filters[field]? = some value →
    ∃ pair ∈ pairs, Filters pair field ∧ pair.2 = value
  named : ∀ pair ∈ pairs, isReserved pair.1 = false →
    ∃ field, Filters pair field ∧ ∃ value, filters[field]? = some value

/-- One more pair. -/
theorem Holds.parsePair {pairs : List (String × String)} (hholds : Holds pairs query.filters)
    (h : ListQuery.parsePair permits query pair = .ok next) :
    Holds (pairs ++ [pair]) next.filters := by
  have hmore : ∀ {field value}, (∃ pair ∈ pairs, Filters pair field ∧ pair.2 = value) →
      ∃ other ∈ pairs ++ [pair], Filters other field ∧ other.2 = value := by
    rintro field value ⟨other, hother, hfilters⟩
    exact ⟨other, List.mem_append_left _ hother, hfilters⟩
  rcases filters_of_parsePair h with ⟨hreserved, hfilters⟩ | ⟨named, hnames, hfilters⟩
  · rw [hfilters]
    refine ⟨fun field value hvalue => hmore (hholds.given field value hvalue), ?_⟩
    intro other hother hfilter
    rcases List.mem_append.mp hother with hold | hnew
    · exact hholds.named other hold hfilter
    · rw [List.mem_singleton.mp hnew, hreserved] at hfilter
      cases hfilter
  · rw [hfilters]
    constructor
    · intro field value hvalue
      by_cases hsame : named = field
      · subst hsame
        rw [Library.getElem?_insert_self] at hvalue
        cases hvalue
        exact ⟨pair, by simp, hnames, rfl⟩
      · rw [Library.getElem?_insert_ne _ _ hsame] at hvalue
        exact hmore (hholds.given field value hvalue)
    · intro other hother hfilter
      rcases List.mem_append.mp hother with hold | hnew
      · obtain ⟨field, hfield, value, hvalue⟩ := hholds.named other hold hfilter
        refine ⟨field, hfield, ?_⟩
        by_cases hsame : named = field
        · subst hsame
          exact ⟨pair.2, Library.getElem?_insert_self _ _ _⟩
        · exact ⟨value, by rw [Library.getElem?_insert_ne _ _ hsame, hvalue]⟩
      · rw [List.mem_singleton.mp hnew]
        exact ⟨named, hnames, pair.2, Library.getElem?_insert_self _ _ _⟩

/-- What a query that was accepted holds. -/
theorem holds_parse {raw : String} (h : ListQuery.parse permits raw = .ok query) :
    Holds (parsePairs raw) query.filters := by
  have hrun : ∀ (rest before : List (String × String)) (start : ListQuery),
      Holds before start.filters → rest.foldlM (ListQuery.parsePair permits) start = .ok query →
        Holds (before ++ rest) query.filters := by
    intro rest
    induction rest with
    | nil =>
        intro before start hbefore hrest
        cases hrest
        rw [List.append_nil]
        exact hbefore
    | cons pair rest ih =>
        intro before start hbefore hrest
        rw [List.foldlM_cons] at hrest
        obtain ⟨next, hnext, hrest⟩ := bind_eq_ok.mp hrest
        rw [List.append_cons]
        exact ih _ next (hbefore.parsePair hnext) hrest
  refine hrun (parsePairs raw) [] .default ⟨fun field value hvalue => ?_, nofun⟩ h
  simp [ListQuery.default] at hvalue

end Parsing

/-! ## What the filter selects -/

section Selected

variable {S : FilterSemantics} {query : ListQuery} {row : Row} {raw : String}

/-- The filter of a query selects what all its comparisons select. -/
theorem matches_toFilter : Matches S query.toFilter row ↔
    ∀ clause ∈ query.clauses, clause.Selects S row := by
  unfold ListQuery.toFilter
  split
  · rename_i hclauses
    simp [hclauses]
  · rename_i clause hclauses
    simp [hclauses]
  · rw [matches_some]
    unfold Filter.Selects Filter.eval
    rw [Filter.evalBy_and, Library.Truth.all_eq_true, List.forall_mem_map]

/-- The filter of a query selects the rows that hold every value of its map. -/
theorem matches_toFilter_iff : Matches S query.toFilter row ↔
    ∀ field value, query.filters[field]? = some value →
      row.get field = some (.string value) := by
  have hclause : ∀ field value, (Filter.compare field .equal (.string value)).Selects S row ↔
      row.get field = some (.string value) := by
    intro field value
    unfold Filter.Selects
    rw [Filter.eval_compare, S.compare_equal_string]
  rw [matches_toFilter, ListQuery.clauses, List.forall_mem_map]
  simp only [Prod.forall, Std.ExtTreeMap.mem_toList_iff_getElem?_eq_some, hclause]

/-- The row that holds just what a query filters on. -/
def rowOf (query : ListQuery) : Row := ⟨query.filters.map fun _ value => .string value⟩

theorem matches_rowOf : Matches S query.toFilter (rowOf query) := by
  refine matches_toFilter_iff.mpr fun field value hvalue => ?_
  unfold rowOf Row.get
  rw [Std.ExtTreeMap.getElem?_map, hvalue]
  rfl

/-- The filter of an accepted query selects the rows the query string describes, exactly where
it filters on no field twice. -/
theorem selects_described_iff {permits : FieldName → Bool}
    (h : ListQuery.parse permits raw = .ok query) :
    (∀ row, Matches S query.toFilter row ↔ Describes raw row) ↔ FiltersOnce raw := by
  have hholds := holds_parse h
  constructor
  · intro hdescribes first hfirst second hsecond field hnames hnamesToo
    -- A row the filter selects holds both values in the one field.
    have hrow := (hdescribes (rowOf query)).mp matches_rowOf
    obtain ⟨field', hfield', hvalue⟩ := hrow first hfirst hnames.1
    obtain ⟨field'', hfield'', hvalue'⟩ := hrow second hsecond hnamesToo.1
    rw [hfield'.unique hnames] at hvalue
    rw [hfield''.unique hnamesToo] at hvalue'
    exact Value.string.inj (Option.some.inj (hvalue.symm.trans hvalue'))
  · intro honce row
    rw [matches_toFilter_iff]
    constructor
    · intro hmatches pair hpair hfilter
      obtain ⟨field, hnames, value, hvalue⟩ := hholds.named pair hpair hfilter
      obtain ⟨other, hother, hnamesToo, rfl⟩ := hholds.given field value hvalue
      refine ⟨field, hnames, ?_⟩
      rw [hmatches field _ hvalue, honce other hother pair hpair field hnamesToo hnames]
    · intro hdescribed field value hvalue
      obtain ⟨pair, hpair, hnames, rfl⟩ := hholds.given field value hvalue
      obtain ⟨other, hother, hheld⟩ := hdescribed pair hpair hnames.1
      rw [← hother.unique hnames]
      exact hheld

end Selected

end DataApi
end SaasFabric
