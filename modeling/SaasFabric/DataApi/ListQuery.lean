import SaasFabric.DataApi.Catalog

/-!
# What a query string asks for

`fabric-data-api`'s `models/query_string.rs`, `models/field_reference.rs`, `models/list_query.rs`
and `limits.rs`.  Which fields a caller may name is a parameter of the parse: the source passes
the resource, and reads nothing else of it.
-/

namespace SaasFabric
namespace DataApi

/-! ## The query string -/

/-- The value of a hexadecimal digit. -/
def hexDigit (byte : UInt8) : Option Nat :=
  if 0x30 ≤ byte.toNat ∧ byte.toNat ≤ 0x39 then some (byte.toNat - 0x30)
  else if 0x41 ≤ byte.toNat ∧ byte.toNat ≤ 0x46 then some (byte.toNat - 0x37)
  else if 0x61 ≤ byte.toNat ∧ byte.toNat ≤ 0x66 then some (byte.toNat - 0x57)
  else none

/-- `hex_escape`: the byte two digits stand for. -/
def hexEscape (high low : UInt8) : Option UInt8 :=
  match hexDigit high, hexDigit low with
  | some high, some low => some (UInt8.ofNat (16 * high + low))
  | _, _ => none

/-- The loop of `percent_decode`: an escape that is none stands for itself. -/
def unescape : List UInt8 → List UInt8
  | 0x25 :: high :: low :: rest =>
      match hexEscape high low with
      | some byte => byte :: unescape rest
      | none => 0x25 :: unescape (high :: low :: rest)
  | byte :: rest => byte :: unescape rest
  | [] => []

/-- `percent_decode`. -/
def percentDecode (input : String) : String :=
  Text.fromUtf8Lossy (unescape ((input.map fun c => if c = '+' then ' ' else c).toUTF8.data.toList))

/-- `parse_pairs`. -/
def parsePairs (raw : String) : List (String × String) :=
  ((Text.split '&' raw).filter (· != "")).map fun pair =>
    let (key, value) := (Text.splitOnce '=' pair).getD (pair, "")
    (percentDecode key, percentDecode value)

/-- `refuse_nul`. -/
def refuseNul (text : String) : Except DataApiError Unit :=
  if Text.contains text (Char.ofNat 0) then
    .error (.badRequest "text must not contain the NUL character")
  else
    .ok ()

/-! ## Names -/

/-- `field_reference::parse`. -/
def parseField (permits : FieldName → Bool) (raw : String) : Except DataApiError FieldName := do
  let field ← (Identifier.tryNew .fieldName (Text.trim raw)).mapError fun error =>
    .badRequest s!"invalid field name: {error}"
  if permits field then
    .ok field
  else
    .error (.badRequest s!"unknown field {field}")

/-- The entries of a list in a parameter. -/
def entries (value : String) : List String := (Text.split ',' value).filter (· != "")

/-- The direction and the name an entry of `sort` asks for. -/
def sortEntry (entry : String) : SortDirection × String :=
  match entry.toList with
  | '-' :: rest => (.descending, String.ofList rest)
  | characters => (.ascending, String.ofList (characters.dropWhile (· == '+')))

/-- One entry of `sort`, its field looked up. -/
def parseSortEntry (permits : FieldName → Bool) (entry : String) :
    Except DataApiError SortField := do
  let (direction, name) := sortEntry entry
  let field ← parseField permits name
  .ok { field, direction }

/-- `parse_sort`. -/
def parseSort (permits : FieldName → Bool) (value : String) :
    Except DataApiError (List SortField) :=
  (entries value).mapM (parseSortEntry permits)

/-- `parse_select`. -/
def parseSelect (permits : FieldName → Bool) (value : String) :
    Except DataApiError (List FieldName) :=
  (entries value).mapM (parseField permits)

/-- `parse_number`. -/
def parseNumber (value parameter : String) : Except DataApiError U32 :=
  match Text.parseUnsigned (2 ^ 32) value with
  | some number => .ok number
  | none => .error (.badRequest s!"{parameter} must be a non-negative integer")

/-! ## The query -/

/-- `ListQuery`. -/
structure ListQuery where
  filters : BTreeMap FieldName String
  sort : List SortField
  select : List FieldName
  limit : Option U32
  offset : Option U32
deriving DecidableEq

namespace ListQuery

/-- `ListQuery::default`. -/
def default : ListQuery := ⟨∅, [], [], none, none⟩

/-- What a parameter sets: any name that is no parameter's is a filter on a field. -/
def setParameter (permits : FieldName → Bool) (query : ListQuery) (key value : String) :
    Except DataApiError ListQuery :=
  if key = "limit" then
    (fun limit => { query with limit := some limit }) <$> parseNumber value "limit"
  else if key = "offset" then
    (fun offset => { query with offset := some offset }) <$> parseNumber value "offset"
  else if key = "sort" then
    (fun sort => { query with sort }) <$> parseSort permits value
  else if key = "select" then
    (fun select => { query with select }) <$> parseSelect permits value
  else
    (fun field => { query with filters := query.filters.insert field value }) <$>
      parseField permits key

/-- What one pair of the query string sets. -/
def parsePair (permits : FieldName → Bool) (query : ListQuery) (pair : String × String) :
    Except DataApiError ListQuery := do
  refuseNul pair.1
  refuseNul pair.2
  setParameter permits query pair.1 pair.2

/-- `ListQuery::parse`. -/
def parse (permits : FieldName → Bool) (raw : String) : Except DataApiError ListQuery :=
  (parsePairs raw).foldlM (parsePair permits) default

variable (query : ListQuery)

/-- The comparisons of `to_filter`. -/
def clauses : List Filter :=
  query.filters.toList.map fun (field, value) => .compare field .equal (.string value)

/-- `ListQuery::to_filter`. -/
def toFilter : Option Filter :=
  match query.clauses with
  | [] => none
  | [clause] => some clause
  | clauses => some (.and clauses)

end ListQuery

/-- `enforce_query`. -/
def enforceQuery (query : ListQuery) (config : DataApiConfig) : Except DataApiError Unit := do
  within "filters" query.filters.size config.maxFilters
  within "sort fields" query.sort.length config.maxSortFields
  within "select fields" query.select.length config.maxSelectFields
  match query.toFilter with
  | some filter => within "filter depth" (depth filter) config.maxFilterDepth
  | none => .ok ()

end DataApi
end SaasFabric
