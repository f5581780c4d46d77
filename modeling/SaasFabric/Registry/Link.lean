import SaasFabric.Registry.Client

/-!
# The next page of a listing

`fabric-registry`'s `client/link.rs`: which page a `Link` header names next.  How a target is
resolved is the `url` crate's.
-/

namespace SaasFabric
namespace Registry

open Platform (RegistryError)

/-! ## A header's next target -/

namespace Link

/-- `str::trim`, on a slice. -/
def trim (text : List Char) : List Char := (text.dropWhile isWhitespace).rdropWhile isWhitespace

/-- `str::trim_matches('"')`, on a slice. -/
def trimQuotes (text : List Char) : List Char := (text.dropWhile (· == '"')).rdropWhile (· == '"')

/-- `str::split_whitespace`, on a slice. -/
def words (text : List Char) : List (List Char) :=
  (text.splitOnP isWhitespace).filter (· ≠ [])

/-- `str::split_once('>')`, on a slice. -/
def splitTarget (text : List Char) : Option (List Char × List Char) :=
  match text.dropWhile (· != '>') with
  | [] => none
  | _ :: after => some (text.takeWhile (· != '>'), after)

/-- `str::strip_prefix("rel=")`, on a slice. -/
def afterRel : List Char → Option (List Char)
  | 'r' :: 'e' :: 'l' :: '=' :: rel => some rel
  | _ => none

/-- Whether one parameter says `rel="next"`. -/
def relIsNext (parameter : List Char) : Bool :=
  (afterRel (trim parameter)).any fun rel =>
    (words (trimQuotes rel)).any fun rel => rel = "next".toList

/-- `is_next`. -/
def isNext (parameters : List Char) : Bool := (parameters.splitOn ';').any relIsNext

/-- The target of one link, where its parameters say it is the next one. -/
def readLink (link : List Char) : Option (List Char) :=
  match trim link with
  | '<' :: rest => (splitTarget rest).bind fun (target, parameters) =>
      if isNext parameters then some target else none
  | _ => none

/-- `next_target`, on a slice. -/
def targetOf (value : List Char) : Option (List Char) := (value.splitOn ',').findSome? readLink

end Link

/-- `next_target`. -/
def nextTarget (value : String) : Option String :=
  (Link.targetOf value.toList).map String.ofList

example : nextTarget "</first>; rel=\"prev\", <https://ghcr.io/v2/a/tags/list?last=c>; rel=next" =
    some "https://ghcr.io/v2/a/tags/list?last=c" := by decide +kernel

example : nextTarget "</next>; title=\"rel=next\"" = none := by decide +kernel

/-! ## Where a page may be -/

/-- A response, the URL that answered and its `Link` values as far as they are text. -/
structure Page where
  response : Response
  url : Url
  links : List (Option String)
deriving DecidableEq

/-- A named next page that is refused. -/
def refusedPage (operation why : String) : RegistryError :=
  .refused (operation ++ " named a next page " ++ why)

section NextPage

variable (format : UrlFormat) (origin : Url) (operation : String)

/-- The URL a target names, where it may be followed. -/
def follow (page : Page) (target : String) : Except RegistryError String :=
  match format.join page.url target with
  | none => .error (refusedPage operation "that is not a URL")
  | some next =>
      if !sameOrigin format next origin then
        .error (refusedPage operation "on another origin, which is not followed")
      else if next.username ≠ "" ∨ next.password.isSome then
        .error (refusedPage operation "carrying a credential, which is not followed")
      else .ok (format.text { next with fragment := none })

/-- `next_page`. -/
def nextPage (page : Page) : Except RegistryError (Option String) :=
  match page.links with
  | [] => .ok none
  | none :: _ => .error (refusedPage operation "in a header that is not text")
  | some value :: _ =>
      match nextTarget value with
      | none => .ok none
      | some target => (follow format origin operation page target).map some

/-- A page that is followed is on the origin, and its URL carries no credential. -/
theorem follow_eq_ok {page : Page} {target next : String}
    (h : follow format origin operation page target = .ok next) :
    ∃ url, format.join page.url target = some url ∧ sameOrigin format url origin = true ∧
      url.username = "" ∧ url.password = none ∧ next = format.text { url with fragment := none } := by
  unfold follow at h
  split at h
  · cases h
  · next url hjoin =>
      split at h
      · cases h
      · next horigin =>
          split at h
          · cases h
          · next hcredential =>
              cases h
              simp only [not_or, not_not, Option.not_isSome_iff_eq_none] at hcredential
              exact ⟨url, hjoin, by simpa using horigin, hcredential.1, hcredential.2, rfl⟩

/-- A page is followed because the first `Link` value names it. -/
theorem nextPage_eq_some {page : Page} {next : String}
    (h : nextPage format origin operation page = .ok (some next)) :
    ∃ value rest target, page.links = some value :: rest ∧ nextTarget value = some target ∧
      follow format origin operation page target = .ok next := by
  unfold nextPage at h
  split at h
  · cases h
  · cases h
  · next value rest hlinks =>
      split at h
      · cases h
      · next target htarget =>
          cases hfollow : follow format origin operation page target with
          | error error => rw [hfollow] at h; cases h
          | ok followed =>
              rw [hfollow] at h
              cases h
              exact ⟨value, rest, target, hlinks, htarget, hfollow⟩

end NextPage

end Registry
end SaasFabric
